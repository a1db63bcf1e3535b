import PeerMessaging.Proofs.Wire.Content

/-!
# Content kept in separate places

The slots, the references and the values of a content are views of its list of sections. They can
as well be kept in separate places, each of which changes with every section: the first free slot
takes the kind, the reference of the slot joins a queue, and the value goes to the end of the list
of its family. On the way to the free slot the earlier slots of the family are counted, and this
count is the index. Both ways to keep a content agree: what is refused by one is refused by the
other for the same reason, and whatever is taken leaves the same slots, references and values.
-/

namespace PeerMessaging

/-- A value that a section can have, whatever its family. -/
inductive Value where
  | key (v : Key)
  | integer (v : Int32)
  | long (v : Int64)
  | bytes (data : Bytes)
  | peers (list : List PeerAddress)
  | endpoints (list : List Endpoint)
  deriving DecidableEq

/-- The value of a section. An empty section has none, and one that is only announced lacks it. -/
def Section.value? : Section → Option Value
  | empty => none
  | key v => some (.key v)
  | integer v => some (.integer v)
  | long v => some (.long v)
  | buffer data => some (.bytes data)
  | neighbors list => some (.peers list)
  | endpoints list => some (.endpoints list)
  | publicKey data => some (.bytes data)
  | signedPublicKey data => some (.bytes data)
  | foreign _ data => some (.bytes data)
  | announced _ => none

namespace Content

/-- The values that a message stores for the family of a kind. -/
def values (c : Content) : ContentKind → List Value
  | .undefined | .empty => []
  | .key => c.keys.map .key
  | .integer => c.integers.map .integer
  | .long => c.longs.map .long
  | .buffer => c.buffers.map .bytes
  | .neighbors => c.neighborSets.map .peers
  | .endpoints => c.endpointSets.map .endpoints
  | .publicKey | .signedPublicKey => c.publicKeys.map .bytes
  | .foreign kind => (c.foreignData kind).map .bytes

/-- The value of a section, if the section belongs to the family of a kind. -/
def valueFor (k : ContentKind) (s : Section) : Option Value :=
  if s.kind.family = k.family then s.value? else none

theorem valueFor_announced (k kind : ContentKind) : valueFor k (.announced kind) = none :=
  ite_self none

/-- Whatever list it is, it holds the values of the sections of one family, in their order. -/
theorem values_eq (c : Content) (k : ContentKind) : c.values k = c.filterMap (valueFor k) := by
  have pick : ∀ {α : Type} {f : Section → Option α} {g : α → Value},
      (∀ s, (f s).map g = valueFor k s) → (c.filterMap f).map g = c.filterMap (valueFor k) := by
    intro α f g same
    rw [List.map_filterMap]
    exact congrFun (congrArg List.filterMap (funext same)) c
  have nothing : (∀ s, valueFor k s = none) → [] = c.filterMap (valueFor k) := by
    intro same
    exact (List.filterMap_eq_nil_iff.mpr fun s _ => same s).symm
  cases k with
  | undefined =>
      refine nothing fun s => ?_
      cases s with
      | announced kind => exact valueFor_announced _ kind
      | _ => rfl
  | empty =>
      refine nothing fun s => ?_
      cases s with
      | announced kind => exact valueFor_announced _ kind
      | _ => rfl
  -- foreign kinds are families of their own, so here the numbers must be compared
  | foreign kind =>
      refine pick fun s => ?_
      cases s with
      | announced kind' => exact (valueFor_announced _ kind').symm
      | foreign other data =>
          by_cases same : other = kind
          · rw [same, Section.foreign?, if_pos rfl]
            exact (if_pos rfl).symm
          · have apart : ContentKind.foreign other ≠ .foreign kind :=
              fun h => same (ContentKind.foreign.inj h)
            rw [Section.foreign?, if_neg same]
            exact (if_neg apart).symm
      | _ => rfl
  | _ =>
      refine pick fun s => ?_
      cases s with
      | announced kind => exact (valueFor_announced _ kind).symm
      | _ => rfl

/-- As long as sections are complete, each has a value but the empty ones. -/
theorem owns_valueFor {k : ContentKind} (valued : k ≠ .empty) : Owns (valueFor k) k.family := by
  intro s complete
  rw [valueFor]
  by_cases own : s.kind.family = k.family
  · rw [if_pos own]
    refine iff_of_true ?_ own
    cases s with
    | empty =>
        exact absurd (family_eq_empty_iff.mp own.symm) valued
    | announced kind => exact nomatch complete
    | _ => rfl
  · rw [if_neg own]
    exact iff_of_false Bool.false_ne_true own

/-- A section that is appended adds its value to the values of its own family and to no others. -/
theorem values_append (c : Content) (s : Section) (k : ContentKind) :
    values (c ++ [s]) k
      = c.values k ++ if s.kind.family = k.family then s.value?.toList else [] := by
  rw [values_eq, values_eq, List.filterMap_append]
  congr 1
  rw [List.filterMap_cons, List.filterMap_nil, valueFor]
  by_cases own : s.kind.family = k.family
  · rw [if_pos own, if_pos own]
    cases s.value? <;> rfl
  · rw [if_neg own, if_neg own]

/-! ## References -/

/-- A kind that is appended adds one reference, which counts the kinds of its family before it. -/
theorem referencesAfter_append (ks : List ContentKind) (k : ContentKind) :
    ∀ earlier, referencesAfter earlier (ks ++ [k])
      = referencesAfter earlier ks
        ++ [⟨(earlier ++ ks).countP fun e => e.family = k.family, k⟩] := by
  induction ks with
  | nil => intro earlier; rw [List.append_nil]; rfl
  | cons k' ks ih =>
      intro earlier
      rw [List.cons_append, referencesAfter, referencesAfter, ih, List.append_assoc]
      rfl

/-- The reference of a slot counts the kinds of its family in the slots before it. -/
theorem getElem?_referencesAfter {ks : List ContentKind} :
    ∀ {earlier : List ContentKind} {i : Nat}, (referencesAfter earlier ks)[i]?
      = (ks[i]?).map fun k => ⟨(earlier ++ ks.take i).countP fun e => e.family = k.family, k⟩ := by
  induction ks with
  | nil => intro earlier i; rfl
  | cons k ks ih =>
      intro earlier i
      cases i with
      | zero =>
          rw [referencesAfter, List.getElem?_cons_zero, List.getElem?_cons_zero, List.take_zero,
            List.append_nil]
          rfl
      | succ i =>
          rw [referencesAfter, List.getElem?_cons_succ, List.getElem?_cons_succ, ih,
            List.take_succ_cons, List.append_assoc]
          rfl

/-- The reference of a slot counts the earlier slots of its family. -/
theorem getElem?_references (c : Content) (i : Nat) :
    c.references[i]? = (c.kinds[i]?).map fun k =>
      ⟨(c.kinds.take i).countP fun e => e.family = k.family, k⟩ :=
  getElem?_referencesAfter

theorem length_references (c : Content) : c.references.length = c.length := by
  have length : ∀ {ks earlier : List ContentKind},
      (referencesAfter earlier ks).length = ks.length := by
    intro ks
    induction ks with
    | nil => intro earlier; rfl
    | cons k ks ih => intro earlier; rw [referencesAfter, List.length_cons, ih, List.length_cons]
  rw [references, length, kinds, List.length_map]

/-- The content splits at a slot. -/
theorem split_of_slot {content : Content} {i : Nat} {s : Section} (put : content[i]? = some s) :
    content = content.take i ++ s :: content.drop (i + 1) := by
  obtain ⟨within, rfl⟩ := List.getElem?_eq_some_iff.mp put
  rw [List.getElem_cons_drop, List.take_append_drop]

/-- The reference of a slot is the one that its section has after those before it. -/
theorem reference_of_slot {content : Content} {i : Nat} {s : Section}
    (put : content[i]? = some s) :
    content.references[i]? = some (referenceOf (content.take i) s) := by
  have kind : content.kinds[i]? = some s.kind := by
    rw [kinds, List.getElem?_map, put]
    rfl
  rw [getElem?_references, kind, Option.map_some, referenceOf, kinds, kinds, List.map_take]

/-- As long as sections are complete, the reference of a slot leads to the value of its own. -/
theorem value_of_slot {content : Content} (complete : ∀ s ∈ content, s.isComplete) {i : Nat}
    {s : Section} (put : content[i]? = some s) (valued : s.kind ≠ .empty) :
    ∃ v, s.value? = some v ∧
      (content.values s.kind)[(referenceOf (content.take i) s).index]? = some v := by
  have own : (valueFor s.kind s).isSome :=
    (owns_valueFor valued s (complete s (List.mem_of_getElem? put))).mpr rfl
  obtain ⟨v, own⟩ := Option.isSome_iff_exists.mp own
  have earlier : ∀ e ∈ content.take i, e.isComplete :=
    fun e he => complete e (List.mem_of_mem_take he)
  have found := (owns_valueFor valued).valueAt_eq earlier (content.drop (i + 1)) s rfl own
  rw [← split_of_slot put, ← values_eq, valueAt] at found
  rw [valueFor, if_pos rfl] at own
  refine ⟨v, own, ?_⟩
  split at found
  · rename_i there
    rw [← Except.ok.inj found]
    exact there
  · cases found

end Content

/-! ## Separate places -/

/-- The slots, the references and the values of each family, kept apart. -/
structure Store where
  slots : Slots := Vector.replicate 8 .undefined
  references : List Reference := []
  values : ContentKind → List Value := fun _ => []

namespace Store

/-- The first free slot, and how many slots of the family of a kind are passed before it. -/
def firstFree (k : ContentKind) : List ContentKind → Option (Nat × Nat)
  | [] => none
  | current :: rest =>
    if current = .undefined then some (0, 0)
    else (firstFree k rest).map fun found =>
      (found.1 + 1, found.2 + if current.family = k.family then 1 else 0)

/-- Puts a kind into the first free slot, with its reference and what value there is. -/
def enter (st : Store) (k : ContentKind) (v : Option Value) : Except StateFault Store :=
  if k = .undefined then .error .undefinedContent
  else match firstFree k st.slots.toList with
    | none => .error .contentFull
    | some (slot, earlier) =>
      if k = .signedPublicKey ∧ slot ≠ 0 then .error .signatureNotFirst
      else .ok {
        slots := st.slots.setIfInBounds slot k
        references := st.references ++ [⟨earlier, k⟩]
        values := fun family =>
          st.values family ++ if k.family = family.family then v.toList else [] }

/-- What a content shows of itself. -/
def ofContent (c : Content) : Store where
  slots := c.slots
  references := c.references
  values := c.values

theorem ofContent_nil : ofContent [] = {} := by
  have values : Content.values [] = fun _ => [] := by
    funext k
    rw [Content.values_eq]
    rfl
  rw [ofContent, values]
  rfl

/-- The used slots are passed, and behind them the first unused one is free. -/
theorem firstFree_eq (k : ContentKind) {ks : List ContentKind} (used : .undefined ∉ ks)
    (n : Nat) :
    firstFree k (ks ++ List.replicate n .undefined)
      = if n = 0 then none else some (ks.length, ks.countP fun e => e.family = k.family) := by
  induction ks with
  | nil =>
      cases n with
      | zero => rfl
      | succ n => rfl
  | cons e ks ih =>
      rw [List.mem_cons, not_or] at used
      rw [List.cons_append, firstFree, if_neg (Ne.symm used.1), ih used.2]
      cases n with
      | zero => rfl
      | succ n =>
          rw [if_neg (Nat.succ_ne_zero n), if_neg (Nat.succ_ne_zero n), List.countP_cons,
            Option.map_some, List.length_cons]
          simp only [decide_eq_true_eq]

/-- A section that is appended puts its kind into the first unused slot and changes no other. -/
theorem slots_append (c : Content) (s : Section) :
    Content.slots (c ++ [s]) = c.slots.setIfInBounds c.length s.kind := by
  refine Vector.ext fun i h => ?_
  have kinds : Content.kinds (c ++ [s]) = c.kinds ++ [s.kind] := Content.kinds_append c [s]
  have width : c.kinds.length = c.length := List.length_map ..
  rw [Content.slots, Vector.getElem_ofFn, kinds, Vector.getElem_setIfInBounds, Content.slots,
    Vector.getElem_ofFn]
  dsimp only
  rcases Nat.lt_trichotomy i c.length with before | rfl | behind
  · rw [if_neg (Nat.ne_of_gt before), List.getElem?_append_left (width ▸ before)]
  · rw [if_pos rfl, ← width, List.getElem?_concat_length, Option.getD_some]
  · have outside : (c.kinds ++ [s.kind]).length ≤ i := by
      rw [List.length_append, width, List.length_singleton]
      exact behind
    rw [if_neg (Nat.ne_of_lt behind), List.getElem?_eq_none outside,
      List.getElem?_eq_none (width ▸ Nat.le_of_lt behind)]

/-- A section that joins a content changes the separate places alike, or is refused alike. -/
theorem enter_ofContent {c : Content} (wellFormed : c.WellFormed) (s : Section) :
    (ofContent c).enter s.kind s.value? = (c.append s).map ofContent := by
  have width : c.kinds.length = c.length := List.length_map ..
  have fits : c.length ≤ Content.capacity := width ▸ wellFormed.fits
  have found : firstFree s.kind c.slots.toList
      = if Content.capacity - c.length = 0 then none
        else some (c.length, c.kinds.countP fun e => e.family = s.kind.family) := by
    rw [Content.slots_eq wellFormed.fits, firstFree_eq s.kind wellFormed.defined, width]
  rw [enter, ofContent, Content.append]
  dsimp only
  rw [found]
  by_cases undefined : s.kind = .undefined
  · rw [if_pos undefined, if_pos undefined]
    rfl
  by_cases full : Content.capacity ≤ c.length
  · rw [if_neg undefined, if_neg undefined, if_pos (Nat.sub_eq_zero_of_le full), if_pos full]
    rfl
  rw [if_neg undefined, if_neg undefined, if_neg (Nat.sub_ne_zero_of_lt (Nat.lt_of_not_le full)),
    if_neg full]
  dsimp only
  have first : c.length ≠ 0 ↔ c ≠ [] := not_congr List.length_eq_zero_iff
  by_cases late : s.kind = .signedPublicKey ∧ c ≠ []
  · rw [if_pos late, if_pos ⟨late.1, first.mpr late.2⟩]
    rfl
  · rw [if_neg late, if_neg fun h => late ⟨h.1, first.mp h.2⟩]
    -- the section is taken, and each place gets what the longer content shows there
    have references : c.references
          ++ [⟨c.kinds.countP fun e => e.family = s.kind.family, s.kind⟩]
        = Content.references (c ++ [s]) := by
      have longer : Content.kinds (c ++ [s]) = c.kinds ++ [s.kind] := Content.kinds_append c [s]
      rw [Content.references, Content.references, longer, Content.referencesAfter_append]
      rfl
    have values : (fun family => c.values family
          ++ if s.kind.family = family.family then s.value?.toList else [])
        = Content.values (c ++ [s]) := by
      funext family
      exact (Content.values_append c s family).symm
    rw [references, values, ← slots_append]
    rfl

end Store

end PeerMessaging
