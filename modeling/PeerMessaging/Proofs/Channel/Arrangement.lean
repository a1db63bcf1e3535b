import Mathlib.Data.List.Nodup
import Mathlib.Data.List.Perm.Basic
import PeerMessaging.Proofs.Channel.Accounts

/-!
# The arrangement of handlers

The handlers of a pipeline are an ordered list. A change of the arrangement is one operation on
that list, told here by names alone: the new handler goes to the head, to the end, in front of its
anchor, behind it or into its place. It is refused if the anchor is missing or another handler has
the new name already, and then nothing happens. No other operation moves a handler.

The numbers of the handlers count what was ever put in, so a number is never given twice. A timer
that rings is heard by the very handler that was put in with the number, as long as it is there, and
by nobody ever after.
-/

namespace PeerMessaging

variable {W H α β : Type}

/-! ## Lists with keys -/

/-- A list in which every element with a key gives way to others. -/
def substitute (key : α → String) (base : String) (others : α → List α) (l : List α) : List α :=
  l.flatMap fun a => if key a = base then others a else [a]

theorem findIdx?_of_not_mem {κ : Type} [BEq κ] [LawfulBEq κ] {key : α → κ} {k : κ} {l : List α}
    (free : k ∉ l.map key) : l.findIdx? (fun a => key a == k) = none := by
  rw [List.findIdx?_eq_none_iff]
  exact fun a member =>
    beq_eq_false_iff_ne.mpr fun same => free (List.mem_map.mpr ⟨a, member, same⟩)

theorem findIdx?_of_mem {κ : Type} [BEq κ] [LawfulBEq κ] {key : α → κ} {k : κ} {l : List α}
    (there : k ∈ l.map key) : (l.findIdx? (fun a => key a == k)).isSome = true := by
  obtain ⟨a, member, same⟩ := List.mem_map.mp there
  rw [List.findIdx?_isSome, List.any_eq_true]
  exact ⟨a, member, beq_iff_eq.mpr same⟩

section Substitute

variable {key : α → String} {base : String} {others : α → List α} {l front back : List α}

/-- `substitute` changes nothing if no element has the key. -/
theorem substitute_of_not_mem (free : base ∉ l.map key) : substitute key base others l = l := by
  induction l with
  | nil => rfl
  | cons a l ih =>
    rw [List.map_cons, List.mem_cons, not_or] at free
    rw [substitute, List.flatMap_cons, if_neg (Ne.symm free.1)]
    exact congrArg (a :: ·) (ih free.2)

/-- Where keys are distinct, the element with a key stands somewhere and nowhere else. -/
theorem substitute_split (distinct : (l.map key).Nodup) (there : base ∈ l.map key) :
    ∃ front a back, l = front ++ a :: back ∧ key a = base ∧ base ∉ front.map key ∧
      ∀ others, substitute key base others l = front ++ (others a ++ back) := by
  obtain ⟨a, member, rfl⟩ := List.mem_map.mp there
  obtain ⟨front, back, rfl⟩ := List.append_of_mem member
  rw [List.map_append, List.map_cons] at distinct
  have away := (List.nodup_cons.mp (List.nodup_middle.mp distinct)).1
  have before : key a ∉ front.map key := fun h => away (List.mem_append_left _ h)
  have behind : key a ∉ back.map key := fun h => away (List.mem_append_right _ h)
  refine ⟨front, a, back, rfl, rfl, before, fun others => ?_⟩
  have same : substitute key (key a) others front = front := substitute_of_not_mem before
  have same' : substitute key (key a) others back = back := substitute_of_not_mem behind
  rw [substitute] at same same' ⊢
  rw [List.flatMap_append, List.flatMap_cons, if_pos rfl, same, same']

/-- `substitute` commutes with a map that keeps the keys. -/
theorem map_substitute {key' : β → String} {others' : β → List β} (f : α → β)
    (keys : ∀ a, key' (f a) = key a) (elements : ∀ a, others' (f a) = (others a).map f) :
    (substitute key base others l).map f = substitute key' base others' (l.map f) := by
  induction l with
  | nil => rfl
  | cons a l ih =>
    rw [substitute] at ih ⊢
    rw [List.flatMap_cons, List.map_append, ih, substitute, substitute, List.map_cons,
      List.flatMap_cons, keys, elements]
    split <;> rfl

theorem insertIdx_length_append (front back : List α) (a : α) :
    (front ++ back).insertIdx front.length a = front ++ a :: back := by
  induction front with
  | nil => rfl
  | cons b front ih => exact congrArg (b :: ·) ih

theorem eraseIdx_length_append (front back : List α) (a : α) :
    (front ++ a :: back).eraseIdx front.length = front ++ back := by
  rw [List.eraseIdx_append_of_length_le (Nat.le_refl _), Nat.sub_self, List.eraseIdx_cons_zero]

/-- What is in a list after `substitute` was there under another key, or takes the place of an
element. -/
theorem mem_substitute {a : α} (member : a ∈ substitute key base others l) :
    a ∈ l ∧ key a ≠ base ∨ ∃ b ∈ l, a ∈ others b := by
  obtain ⟨b, there, member⟩ := List.mem_flatMap.mp member
  split at member
  · exact .inr ⟨b, there, member⟩
  · rename_i other
    obtain rfl := List.mem_singleton.mp member
    exact .inl ⟨there, other⟩

end Substitute

/-! ## What a change makes of a list -/

namespace Operation

/-- The list after an operation. `make` is what a new handler is in the list. -/
def rearrange (key : α → String) (make : String → H → α) : Operation H → List α → List α
  | addFirst name h, l => make name h :: l
  | addLast name h, l => l ++ [make name h]
  | addBefore base name h, l => substitute key base (fun a => [make name h, a]) l
  | addAfter base name h, l => substitute key base (fun a => [a, make name h]) l
  | replace old name h, l => substitute key old (fun _ => [make name h]) l
  | remove name, l => substitute key name (fun _ => []) l
  | _, l => l

/-- Whether an operation is to change the arrangement. -/
def arranges : Operation H → Bool
  | addFirst .. | addLast .. | addBefore .. | addAfter .. | replace .. | remove .. => true
  | _ => false

/-- The fault of a name that is not there. -/
def missing (names : List String) (name : String) : Option StateFault :=
  if name ∈ names then none else some (.handlerNotFound name)

/-- The fault of a new name that is there. -/
def taken (names : List String) (name : String) : Option StateFault :=
  if name ∈ names then some (.duplicateHandler name) else none

/-- Why an operation is refused where there are handlers of the given names. A replacement may have
any name that no other handler has. -/
def fault? (names : List String) : Operation H → Option StateFault
  | addFirst name _ => taken names name
  | addLast name _ => taken names name
  | addBefore base name _ => (missing names base).or (taken names name)
  | addAfter base name _ => (missing names base).or (taken names name)
  | replace old name _ => (missing names old).or (taken (names.erase old) name)
  | remove name => missing names name
  | _ => none

/-- `rearrange` commutes with a map that keeps the names. -/
theorem map_rearrange {key : α → String} {key' : β → String} {make : String → H → α}
    {make' : String → H → β} (f : α → β) (keys : ∀ a, key' (f a) = key a)
    (makes : ∀ name h, f (make name h) = make' name h) (o : Operation H) (l : List α) :
    (o.rearrange key make l).map f = o.rearrange key' make' (l.map f) := by
  cases o with
  | addFirst name h => rw [rearrange, rearrange, List.map_cons, makes]
  | addLast name h => rw [rearrange, rearrange, List.map_append, List.map_singleton, makes]
  | addBefore base name h => exact map_substitute f keys fun a => by simp [makes]
  | addAfter base name h => exact map_substitute f keys fun a => by simp [makes]
  | replace old name h => exact map_substitute f keys fun a => by simp [makes]
  | remove name => exact map_substitute f keys fun a => rfl
  | _ => rfl

/-- What is in the list after an operation was there before, or it is the new handler. -/
theorem mem_rearrange {key : α → String} {make : String → H → α} {o : Operation H} {l : List α}
    {a : α} (member : a ∈ o.rearrange key make l) :
    a ∈ l ∨ ∃ name h, o.newcomer? = some (name, h) ∧ a = make name h := by
  cases o with
  | addFirst name h =>
    obtain rfl | there := List.mem_cons.mp member
    · exact .inr ⟨name, h, rfl, rfl⟩
    · exact .inl there
  | addLast name h =>
    obtain there | new := List.mem_append.mp member
    · exact .inl there
    · exact .inr ⟨name, h, rfl, List.mem_singleton.mp new⟩
  | addBefore base name h =>
    obtain ⟨there, -⟩ | ⟨b, there, other⟩ := mem_substitute member
    · exact .inl there
    · obtain rfl | rfl := List.mem_pair.mp other
      · exact .inr ⟨name, h, rfl, rfl⟩
      · exact .inl there
  | addAfter base name h =>
    obtain ⟨there, -⟩ | ⟨b, there, other⟩ := mem_substitute member
    · exact .inl there
    · obtain rfl | rfl := List.mem_pair.mp other
      · exact .inl there
      · exact .inr ⟨name, h, rfl, rfl⟩
  | replace old name h =>
    obtain ⟨there, -⟩ | ⟨b, there, other⟩ := mem_substitute member
    · exact .inl there
    · exact .inr ⟨name, h, rfl, List.mem_singleton.mp other⟩
  | remove name =>
    obtain ⟨there, -⟩ | ⟨b, there, other⟩ := mem_substitute member
    · exact .inl there
    · cases other
  | _ => exact .inl member

/-- The name of the handler that an operation is to take out. -/
def leaver? : Operation H → Option String
  | replace old _ _ => some old
  | remove name => some name
  | _ => none

/-- The handler that is taken out is not among those that stay. -/
theorem mem_rearrange_of_leaver {key : α → String} {make : String → H → α} {o : Operation H}
    {l : List α} {a : α} {base : String} (leaves : o.leaver? = some base)
    (member : a ∈ o.rearrange key make l) :
    a ∈ l ∧ key a ≠ base ∨ ∃ name h, o.newcomer? = some (name, h) ∧ a = make name h := by
  cases o with
  | replace old name h =>
    cases leaves
    obtain stays | ⟨b, there, other⟩ := mem_substitute member
    · exact .inl stays
    · exact .inr ⟨name, h, rfl, List.mem_singleton.mp other⟩
  | remove name =>
    cases leaves
    obtain stays | ⟨b, there, other⟩ := mem_substitute member
    · exact .inl stays
    · cases other
  | _ => cases leaves

/-! ## Names -/

/-- `missing` finds no fault exactly with a name that is there. -/
theorem missing_eq_none {names : List String} {name : String} :
    missing names name = none ↔ name ∈ names := by
  rw [missing]
  split <;> simp [*]

/-- `taken` finds no fault exactly with a name that is free. -/
theorem taken_eq_none {names : List String} {name : String} :
    taken names name = none ↔ name ∉ names := by
  rw [taken]
  split <;> simp [*]

/-- `taken` finds fault with a name that is there, and names it. -/
theorem taken_eq_some {names : List String} {name : String} {fault : StateFault} :
    taken names name = some fault ↔ name ∈ names ∧ .duplicateHandler name = fault := by
  rw [taken]
  split <;> simp [*]

/-- A change that is not refused leaves names that are distinct if they were before. -/
theorem nodup_rearrange {names : List String} {o : Operation H} (distinct : names.Nodup)
    (passes : o.fault? names = none) : (o.rearrange id (fun name _ => name) names).Nodup := by
  -- with the identity as the key, what is told of handlers by their names holds of the names
  have split {base : String} (there : missing names base = none) :
      ∃ front back, names = front ++ base :: back ∧ base ∉ front ∧
        ∀ others, substitute id base others names = front ++ (others base ++ back) := by
    have distinct' : (names.map id).Nodup := by rwa [List.map_id]
    have there' : base ∈ names.map id := by rwa [List.map_id, ← missing_eq_none]
    obtain ⟨front, a, back, here, keyed, before, same⟩ := substitute_split distinct' there'
    obtain rfl : a = base := keyed
    exact ⟨front, back, here, by rwa [List.map_id] at before, same⟩
  have free {name : String} (new : taken names name = none) : (name :: names).Nodup :=
    List.nodup_cons.mpr ⟨taken_eq_none.mp new, distinct⟩
  cases o with
  | addFirst name h => exact free passes
  | addLast name h => exact List.nodup_middle.mpr (by simpa using free passes)
  | addBefore base name h =>
    obtain ⟨there, new⟩ := Option.or_eq_none_iff.mp passes
    obtain ⟨front, back, here, -, same⟩ := split there
    rw [rearrange, same]
    exact List.nodup_middle.mpr (here ▸ free new)
  | addAfter base name h =>
    obtain ⟨there, new⟩ := Option.or_eq_none_iff.mp passes
    obtain ⟨front, back, here, -, same⟩ := split there
    have distinct' : (name :: (front ++ [base] ++ back)).Nodup := by
      simpa [here] using free new
    rw [rearrange, same]
    simpa using List.nodup_middle.mpr distinct'
  | replace old name h =>
    obtain ⟨there, new⟩ := Option.or_eq_none_iff.mp passes
    obtain ⟨front, back, here, before, same⟩ := split there
    rw [taken_eq_none, here, List.erase_append_right _ before, List.erase_cons_head] at new
    rw [here] at distinct
    rw [rearrange, same]
    exact List.nodup_middle.mpr (List.nodup_cons.mpr
      ⟨new, (List.nodup_cons.mp (List.nodup_middle.mp distinct)).2⟩)
  | remove name =>
    obtain ⟨front, back, here, -, same⟩ := split passes
    rw [here] at distinct
    rw [rearrange, same]
    exact (List.nodup_cons.mp (List.nodup_middle.mp distinct)).2
  | _ => exact distinct

end Operation

/-! ## Checks -/

namespace Pipeline

open Operation

variable {hooks : Hooks W H} {p q : Pipeline W H} {name base : String} {fault : StateFault}

theorem place?_eq_none (free : name ∉ p.names) : p.place? name = none := findIdx?_of_not_mem free

theorem place?_isSome (there : name ∈ p.names) : (p.place? name).isSome = true :=
  findIdx?_of_mem there

/-- `checkNew` refuses a name that is there. -/
theorem checkNew_of_taken (faulty : taken p.names name = some fault) :
    p.checkNew name = .error (.state fault) := by
  rw [taken] at faulty
  split at faulty
  · cases faulty
    rw [checkNew, contains, if_pos (place?_isSome ‹_›)]
  · cases faulty

/-- `checkNew` passes a name that is free. -/
theorem checkNew_of_free (new : taken p.names name = none) : p.checkNew name = .ok () := by
  rw [checkNew, contains, place?_eq_none (taken_eq_none.mp new)]
  rfl

/-- `anchor` refuses a name that is not there. -/
theorem anchor_of_missing (faulty : missing p.names name = some fault) :
    p.anchor name = .error (.state fault) := by
  rw [missing] at faulty
  split at faulty
  · cases faulty
  · cases faulty
    rw [anchor, place?_eq_none ‹_›]

/-- An anchor that is there is the one handler of its name. -/
theorem anchor_of_present (distinct : p.names.Nodup) (there : missing p.names name = none) :
    ∃ front e back, p.entries = front ++ e :: back ∧ p.anchor name = .ok front.length ∧
      ∀ others, substitute Entry.name name others p.entries = front ++ (others e ++ back) := by
  obtain ⟨front, e, back, here, named, before, same⟩ :=
    substitute_split distinct (missing_eq_none.mp there)
  refine ⟨front, e, back, here, ?_, same⟩
  have passes : front.findIdx? (fun e => e.name == name) = none := findIdx?_of_not_mem before
  rw [anchor, place?, here, List.findIdx?_append, passes, List.findIdx?_cons, named,
    beq_self_eq_true]
  simp

/-- `anchorForNew` fails with the first fault: the base that is missing, or else the name that is
taken. -/
theorem anchorForNew_of_fault (distinct : p.names.Nodup)
    (faulty : (missing p.names base).or (taken p.names name) = some fault) :
    p.anchorForNew base name = .error (.state fault) := by
  rw [anchorForNew]
  cases absent : missing p.names base with
  | some fault' =>
    rw [absent] at faulty
    cases faulty
    rw [anchor_of_missing absent]
  | none =>
    rw [absent] at faulty
    obtain ⟨_, _, _, _, found, _⟩ := anchor_of_present distinct absent
    rw [found, checkNew_of_taken faulty]

end Pipeline

/-! ## Changes -/

namespace Operation

open Pipeline

variable {hooks : Hooks W H} {p q : Pipeline W H} {o : Operation H} {fault : StateFault}
  {bound : Nat} {result : Except Failure Unit}

/-- Only another handler can have taken the name of a replacement. -/
theorem taken_erase {names : List String} (distinct : names.Nodup) (old name : String) :
    taken (names.erase old) name = if name = old then none else taken names name := by
  split
  · rename_i same
    rw [taken_eq_none, same]
    exact distinct.not_mem_erase
  · rename_i other
    rw [taken, taken]
    exact if_congr (List.mem_erase_of_ne other) rfl rfl

/-- A change that is refused leaves the pipeline as it was, the world included, whatever the hooks
of the handlers are. -/
theorem apply_refused (distinct : p.names.Nodup) (faulty : o.fault? p.names = some fault)
    (hooks : Hooks W H) (bound : Nat) :
    o.apply hooks bound p = some (.error (.state fault), p) := by
  cases o with
  | addFirst name h =>
    rw [apply, Pipeline.addFirst, checkNew_of_taken faulty]
    rfl
  | addLast name h =>
    rw [apply, Pipeline.addLast, checkNew_of_taken faulty]
    rfl
  | addBefore base name h =>
    rw [apply, Pipeline.addBefore, anchorForNew_of_fault distinct faulty]
    rfl
  | addAfter base name h =>
    rw [apply, Pipeline.addAfter, anchorForNew_of_fault distinct faulty]
    rfl
  | replace old name h =>
    -- only the other handlers can have the new name, so under the old one it is never taken
    have refused : (if name = old then p.anchor old else p.anchorForNew old name) =
        .error (.state fault) := by
      rw [fault?, taken_erase distinct] at faulty
      split at faulty
      · rw [if_pos ‹_›]
        exact anchor_of_missing (by rwa [Option.or_none] at faulty)
      · rw [if_neg ‹_›]
        exact anchorForNew_of_fault distinct faulty
    rw [apply, Pipeline.replace, refused]
    rfl
  | remove name =>
    rw [apply, Pipeline.remove, anchor_of_missing faulty]
    rfl
  | _ => cases faulty

/-- A replacement that is not refused has the place of the handler that it replaces. -/
theorem replace_check {old name : String} {place : Nat} (distinct : p.names.Nodup)
    (new : taken (p.names.erase old) name = none) (found : p.anchor old = .ok place) :
    (if name = old then p.anchor old else p.anchorForNew old name) = .ok place := by
  rw [taken_erase distinct] at new
  split at new
  · rw [if_pos ‹_›, found]
  · rw [if_neg ‹_›]
    exact anchorForNew_eq_ok.mpr ⟨found, checkNew_of_free new⟩

/-- The handlers and the next number that an operation is to leave if it is not refused. -/
def rearranged (o : Operation H) (p : Pipeline W H) : Roster H where
  entries := o.rearrange Entry.name (fun name h => ⟨p.nextId, name, h⟩) p.entries
  nextId := p.nextId + o.newcomer?.toList.length

/-- The errands of a change do what the change is to do. -/
theorem serve_errands (distinct : p.names.Nodup) (passes : o.fault? p.names = none) :
    (o.errands p).foldl Roster.serve p.roster = o.rearranged p := by
  cases o with
  | addFirst name h =>
    rw [errands, checkNew_of_free passes]
    rfl
  | addLast name h =>
    rw [errands, checkNew_of_free passes, rearranged, rearrange]
    exact congrArg (Roster.mk · (p.nextId + 1)) List.insertIdx_length_self
  | addBefore base name h =>
    obtain ⟨there, new⟩ := Option.or_eq_none_iff.mp passes
    obtain ⟨front, e, back, here, found, same⟩ := anchor_of_present distinct there
    rw [errands, anchorForNew_eq_ok.mpr ⟨found, checkNew_of_free new⟩, rearranged, rearrange, same]
    refine congrArg (Roster.mk · (p.nextId + 1)) ?_
    rw [roster, here]
    exact insertIdx_length_append front (e :: back) _
  | addAfter base name h =>
    obtain ⟨there, new⟩ := Option.or_eq_none_iff.mp passes
    obtain ⟨front, e, back, here, found, same⟩ := anchor_of_present distinct there
    rw [errands, anchorForNew_eq_ok.mpr ⟨found, checkNew_of_free new⟩, rearranged, rearrange, same]
    refine congrArg (Roster.mk · (p.nextId + 1)) ?_
    have behind := insertIdx_length_append (front ++ [e]) back ⟨p.nextId, name, h⟩
    rw [List.length_append, List.append_assoc, List.append_assoc] at behind
    rw [roster, here]
    exact behind
  | replace old name h =>
    obtain ⟨there, new⟩ := Option.or_eq_none_iff.mp passes
    obtain ⟨front, e, back, here, found, same⟩ := anchor_of_present distinct there
    rw [errands, replace_check distinct new found, rearranged, rearrange, same]
    refine congrArg (Roster.mk · (p.nextId + 1)) ?_
    rw [roster, here, Roster.serve]
    -- the place is free once the old handler is out, and it is where the new one goes
    exact (congrArg (List.insertIdx · front.length _) (eraseIdx_length_append front back e)).trans
      (insertIdx_length_append front back _)
  | remove name =>
    obtain ⟨front, e, back, here, found, same⟩ := anchor_of_present distinct passes
    rw [errands, found, rearranged, rearrange, same]
    refine congrArg (Roster.mk · p.nextId) ?_
    rw [roster, here]
    exact eraseIdx_length_append front back e
  | ringTimer id =>
    rw [errands]
    split <;> rfl
  | _ => rfl

/-- What has no fault is allowed. -/
theorem checked_of_passes (distinct : p.names.Nodup) (passes : o.fault? p.names = none) :
    o.checked p = .ok () := by
  cases o with
  | addFirst name h =>
    rw [checked, checkNew_of_free passes]
    rfl
  | addLast name h =>
    rw [checked, checkNew_of_free passes]
    rfl
  | addBefore base name h =>
    obtain ⟨there, new⟩ := Option.or_eq_none_iff.mp passes
    obtain ⟨_, _, _, _, found, _⟩ := anchor_of_present distinct there
    rw [checked, anchorForNew_eq_ok.mpr ⟨found, checkNew_of_free new⟩]
    rfl
  | addAfter base name h =>
    obtain ⟨there, new⟩ := Option.or_eq_none_iff.mp passes
    obtain ⟨_, _, _, _, found, _⟩ := anchor_of_present distinct there
    rw [checked, anchorForNew_eq_ok.mpr ⟨found, checkNew_of_free new⟩]
    rfl
  | replace old name h =>
    obtain ⟨there, new⟩ := Option.or_eq_none_iff.mp passes
    obtain ⟨_, _, _, _, found, _⟩ := anchor_of_present distinct there
    rw [checked, replace_check distinct new found]
    rfl
  | remove name =>
    obtain ⟨_, _, _, _, found, _⟩ := anchor_of_present distinct passes
    rw [checked, found]
    rfl
  | _ => rfl

theorem ne_write_of_arranges (arranges : o.arranges = true) (item : Item) : o ≠ .write item := by
  rintro rfl
  cases arranges

/-- A change that is not refused succeeds. -/
theorem apply_accepted (distinct : p.names.Nodup) (passes : o.fault? p.names = none)
    (arranges : o.arranges = true) (applied : o.apply hooks bound p = some (result, q)) :
    result = .ok () := by
  obtain ⟨journal, _, tracked⟩ :=
    (apply_planned hooks p (ne_write_of_arranges arranges)).tracked bound
  exact (tracked.accounts applied).1.trans (checked_of_passes distinct passes)

/-- An operation that is not refused leaves the handlers that it is to leave. -/
theorem apply_rearranged (distinct : p.names.Nodup) (passes : o.fault? p.names = none)
    (applied : o.apply hooks bound p = some (result, q)) :
    (o.rearranged p).Kin hooks q.roster := by
  obtain ⟨journal, accounts⟩ := apply_accounts applied
  rw [← serve_errands distinct passes]
  exact accounts.roster

/-- The names after an operation that is not refused come from the names before it. -/
theorem apply_names (distinct : p.names.Nodup) (passes : o.fault? p.names = none)
    (applied : o.apply hooks bound p = some (result, q)) :
    q.names = o.rearrange id (fun name _ => name) p.names := by
  have mapped : (o.rearranged p).entries.map Entry.name =
      o.rearrange id (fun name _ => name) p.names := by
    refine map_rearrange Entry.name ?_ ?_ o p.entries
    · exact fun _ => rfl
    · exact fun _ _ => rfl
  exact (kin_map Entry.Kin.name (apply_rearranged distinct passes applied).entries).trans mapped

end Operation

end PeerMessaging
