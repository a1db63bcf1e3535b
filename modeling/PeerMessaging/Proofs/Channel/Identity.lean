import PeerMessaging.Proofs.Channel.Arrangement

/-!
# The identity of handlers

A pipeline remembers nothing of the handlers that are gone but how many there were. This is enough
for every handler to stay the one that was put in with its number: the numbers of all that were ever
put in are counted from zero, those in the chain are among them, and a handler that is gone never
comes back, though its name may.

What was said of one operation holds of every pipeline, however it came about, since the names are
distinct at any time.
-/

namespace PeerMessaging

variable {W H : Type}

namespace Pipeline

variable {hooks : Hooks W H} {p q : Pipeline W H}

/-! ## Numbers -/

/-- An entry is kin to one of the entries that its list is kin to. -/
theorem exists_kin {l m : List (Entry H)} (kin : List.Forall₂ (Entry.Kin hooks) l m) {e : Entry H}
    (member : e ∈ m) : ∃ e' ∈ l, e'.Kin hooks e := by
  induction kin with
  | nil => cases member
  | cons head _ ih =>
    obtain rfl | member := List.mem_cons.mp member
    · exact ⟨_, List.mem_cons_self, head⟩
    · obtain ⟨e', there, kin⟩ := ih member
      exact ⟨e', List.mem_cons_of_mem _ there, kin⟩

namespace Roster

/-- The numbers of the handlers. -/
def ids (l : Roster H) : List Nat := l.entries.map Entry.id

/-- The numbers are distinct, and all of them were given. -/
structure Numbered (l : Roster H) : Prop where
  alone : l.ids.Nodup
  given : ∀ id ∈ l.ids, id < l.nextId

/-- A number was given, and nobody has it. -/
structure Lacks (l : Roster H) (id : Nat) : Prop where
  given : id < l.nextId
  gone : id ∉ l.ids

/-- An errand takes numbers away or adds the next. -/
theorem ids_serve (l : Roster H) (errand : Errand H) :
    (l.serve errand).ids.Sublist l.ids ∧ l.nextId ≤ (l.serve errand).nextId ∨
      List.Perm (l.serve errand).ids (l.nextId :: l.ids) ∧
        (l.serve errand).nextId = l.nextId + 1 := by
  cases errand with
  | enter place name h =>
    by_cases within : place ≤ l.entries.length
    · refine .inr ⟨?_, rfl⟩
      exact (List.perm_insertIdx ⟨l.nextId, name, h⟩ l.entries within).map Entry.id
    · refine .inl ⟨?_, Nat.le_succ _⟩
      rw [serve, ids, List.insertIdx_of_length_lt (Nat.lt_of_not_le within)]
      exact List.Sublist.refl _
  | leave place => exact .inl ⟨(List.eraseIdx_sublist l.entries place).map Entry.id, Nat.le_refl _⟩
  | _ => exact .inl ⟨List.Sublist.refl _, Nat.le_refl _⟩

/-- An errand keeps numbers distinct and below the next one. -/
theorem Numbered.serve {l : Roster H} (numbered : l.Numbered) (errand : Errand H) :
    (l.serve errand).Numbered := by
  obtain ⟨fewer, next⟩ | ⟨more, next⟩ := ids_serve l errand
  · exact ⟨numbered.alone.sublist fewer,
      fun id member => Nat.lt_of_lt_of_le (numbered.given id (fewer.subset member)) next⟩
  · refine ⟨more.nodup_iff.mpr (List.nodup_cons.mpr ⟨?_, numbered.alone⟩), fun id member => ?_⟩
    · exact fun member => Nat.lt_irrefl _ (numbered.given _ member)
    · rw [next]
      obtain rfl | member := List.mem_cons.mp (more.mem_iff.mp member)
      · exact Nat.lt_succ_self _
      · exact Nat.lt_succ_of_lt (numbered.given id member)

/-- A number that no entry has, and that was given before, is not given again by an errand. -/
theorem Lacks.serve {l : Roster H} {id : Nat} (lacks : l.Lacks id) (errand : Errand H) :
    (l.serve errand).Lacks id := by
  obtain ⟨fewer, next⟩ | ⟨more, next⟩ := ids_serve l errand
  · exact ⟨Nat.lt_of_lt_of_le lacks.given next, fun member => lacks.gone (fewer.subset member)⟩
  · refine ⟨next ▸ Nat.lt_succ_of_lt lacks.given, fun member => ?_⟩
    obtain rfl | member := List.mem_cons.mp (more.mem_iff.mp member)
    · exact Nat.lt_irrefl _ lacks.given
    · exact lacks.gone member

theorem Kin.ids {l m : Roster H} (kin : l.Kin hooks m) : m.ids = l.ids :=
  kin_map Entry.Kin.id kin.entries

theorem Kin.numbered {l m : Roster H} (kin : l.Kin hooks m) (numbered : l.Numbered) : m.Numbered :=
  ⟨kin.ids ▸ numbered.alone, fun id member => kin.nextId ▸ numbered.given id (kin.ids ▸ member)⟩

/-- Kin rosters lack the same numbers. -/
theorem Kin.lacks {l m : Roster H} {id : Nat} (kin : l.Kin hooks m) (lacks : l.Lacks id) :
    m.Lacks id :=
  ⟨kin.nextId ▸ lacks.given, fun member => lacks.gone (kin.ids ▸ member)⟩

end Roster

/-- What every errand keeps and what does not depend on the states of handlers, operations keep. -/
theorem apply_invariant {P : Roster H → Prop} (serve : ∀ l errand, P l → P (l.serve errand))
    (kin : ∀ l m : Roster H, l.Kin hooks m → P l → P m) {o : Operation H} {bound : Nat}
    {result : Except Failure Unit} (applied : o.apply hooks bound p = some (result, q))
    (holds : P p.roster) : P q.roster := by
  obtain ⟨journal, accounts⟩ := Operation.apply_accounts applied
  have served (errands : List (Errand H)) {l : Roster H} (holds : P l) :
      P (errands.foldl Roster.serve l) := by
    induction errands generalizing l with
    | nil => exact holds
    | cons errand errands ih => exact ih (serve l errand holds)
  exact kin _ _ accounts.roster (served _ holds)

/-! ## Timers -/

/-- One thing that happens to a pipeline: an operation, or something around it. -/
inductive Moves (hooks : Hooks W H) : Pipeline W H → Pipeline W H → Prop
  | operation {p q : Pipeline W H} {o : Operation H} {bound : Nat} {result : Except Failure Unit}
      (applied : o.apply hooks bound p = some (result, q)) : Moves hooks p q
  | outside {p q : Pipeline W H} (entries : q.entries = p.entries) (nextId : q.nextId = p.nextId)
      (queue : q.queue = p.queue) : Moves hooks p q

theorem Moves.lacks {id : Nat} (moves : Moves hooks p q) (lacks : p.roster.Lacks id) :
    q.roster.Lacks id := by
  cases moves with
  | operation applied =>
    exact apply_invariant (fun _ errand lacks => lacks.serve errand) (fun _ _ kin => kin.lacks)
      applied lacks
  | outside entries nextId _ =>
    rw [roster, entries, nextId]
    exact lacks

/-- A number that nobody has any more nobody will ever have. -/
theorem lacks_of_path {id : Nat} (path : Relation.ReflTransGen (Moves hooks) p q)
    (lacks : p.roster.Lacks id) : q.roster.Lacks id := by
  induction path with
  | refl => exact lacks
  | tail _ moves ih => exact moves.lacks ih

/-- Nothing happens when a timer rings whose handler is gone. -/
theorem ringTimer_of_gone {id : Nat} (gone : id ∉ p.roster.ids) (hooks : Hooks W H) (bound : Nat) :
    p.ringTimer hooks bound id = some p := by
  have nowhere : p.placeOfId id = none := findIdx?_of_not_mem gone
  rw [ringTimer, nowhere]

/-- An entry is found by its number, as long as no other entry has it. -/
theorem placeOfId_of_mem (alone : p.roster.ids.Nodup) {e : Entry H} (member : e ∈ p.entries) :
    ∃ place, p.placeOfId e.id = some place ∧ p.entries[place]? = some e := by
  have found : (p.placeOfId e.id).isSome = true := findIdx?_of_mem (List.mem_map_of_mem member)
  obtain ⟨place, found⟩ := Option.isSome_iff_exists.mp found
  obtain ⟨within, same, -⟩ := List.findIdx?_eq_some_iff_getElem.mp found
  refine ⟨place, found, ?_⟩
  rw [List.getElem?_eq_getElem within]
  exact congrArg some (List.inj_on_of_nodup_map alone (List.getElem_mem within) member
    (beq_iff_eq.mp same))

/-- What was put off asks nobody about a timer. -/
theorem Working.untimed {stages : List (Stage H)} (working : Working hooks stages p q) :
    ∀ c ∈ stages.flatMap Stage.calls, c.question ≠ .hear .timer := by
  induction working with
  | pause => exact fun _ member => absurd member List.not_mem_nil
  | @next _ _ _ d _ calls _ _ _ performs _ ih =>
    rw [List.flatMap_cons]
    refine List.forall_mem_append.mpr ⟨fun c member timed => ?_, ih⟩
    cases d with
    | write item =>
      have asked : (∃ item, c.question = .turn item) ∨ ∃ f, c.question = .learn f := by
        cases performs with
        | sent walk => exact walk.questions c member
        | unsent walk => exact walk.questions c member
      obtain ⟨_, asked⟩ | ⟨_, asked⟩ := asked <;> cases timed.symm.trans asked
    | event origin event =>
      cases performs with
      | spread walk =>
        obtain asked | ⟨_, asked⟩ := walk.questions c member <;> cases timed.symm.trans asked

/-- The first call when a timer rings is that of its handler, and there is no other of its kind,
whether what was put off is worked off or not. -/
theorem Underway.ring {place : Nat} {calls : List Call} {ending : Ending} {journal : List (Stage H)}
    (underway :
      Underway hooks [.ring place] (⟨none, .ring place, calls, ending⟩ :: journal) p q) :
    ∃ c more answer m, calls ++ journal.flatMap Stage.calls = c :: more ∧
      Asks hooks place (.hear .timer) answer c p m ∧ ∀ c' ∈ more, c'.question ≠ .hear .timer := by
  have ⟨m, performs, untimed⟩ : ∃ m, Performs hooks (.ring place) calls ending p m ∧
      ∀ c ∈ journal.flatMap Stage.calls, c.question ≠ .hear .timer := by
    cases underway with
    | amid performs working => exact ⟨_, performs, working.untimed⟩
    | next performs drains later =>
      cases later
      exact ⟨_, performs, by simpa using drains.working.untimed⟩
  -- a timer is for every handler, whatever its role, and the walk has one place
  cases performs with
  | ring walk =>
    cases walk with
    | aside _ aside _ => cases aside
    | calm head tail =>
      cases tail
      exact ⟨_, _, _, _, rfl, head, untimed⟩
    | @alarmed _ _ _ _ _ _ c told _ f head alarm tail =>
      cases tail
      refine ⟨c, told ++ [] ++ _, _, _, rfl, head, List.forall_mem_append.mpr ⟨?_, untimed⟩⟩
      rw [List.append_nil]
      intro c' member timed
      cases timed.symm.trans (alarm.questions c' member)

/-! ## Histories -/

/-- How the handlers of a pipeline stand to all that were ever put in. Their names are distinct. The
numbers were given in order from zero, and everybody in the chain is one of those put in, as its own
hooks have left it. -/
structure Arranged (hooks : Hooks W H) (past : List (Entry H)) (p : Pipeline W H) : Prop where
  distinct : p.names.Nodup
  counted : past.map Entry.id = List.range past.length
  next : p.nextId = past.length
  numbered : p.roster.Numbered
  instances : ∀ e ∈ p.entries, ∃ first ∈ past, first.Kin hooks e

end Pipeline

namespace Operation

open Pipeline

variable {hooks : Hooks W H} {p q : Pipeline W H} {o : Operation H} {bound : Nat}
  {result : Except Failure Unit}

theorem arranges_of_newcomer {name : String} {h : H} (new : o.newcomer? = some (name, h)) :
    o.arranges = true := by
  cases o <;> first | rfl | cases new

/-- An operation that is not refused puts its new handler in. -/
theorem admitted_of_passes (distinct : p.names.Nodup) (passes : o.fault? p.names = none)
    (applied : o.apply hooks bound p = some (result, q)) :
    o.admitted p result = (o.newcomer?.map fun (name, h) => ⟨p.nextId, name, h⟩).toList := by
  cases new : o.newcomer? with
  | none => cases result <;> simp [admitted, new]
  | some newcomer =>
    rw [apply_accepted distinct passes (arranges_of_newcomer new) applied, admitted, new]

end Operation

namespace Pipeline

variable {hooks : Hooks W H} {p q : Pipeline W H}

open Operation in
/-- An operation keeps the handlers arranged. -/
theorem Arranged.apply {past : List (Entry H)} {o : Operation H} {bound : Nat}
    {result : Except Failure Unit} (arranged : Arranged hooks past p)
    (applied : o.apply hooks bound p = some (result, q)) :
    Arranged hooks (past ++ o.admitted p result) q := by
  cases faulty : o.fault? p.names with
  | some fault =>
    have refused := apply_refused arranged.distinct faulty hooks bound
    cases refused.symm.trans applied
    rw [admitted, List.append_nil]
    exact arranged
  | none =>
    have kin := apply_rearranged arranged.distinct faulty applied
    have next : q.nextId = past.length + o.newcomer?.toList.length := by
      rw [← arranged.next]
      exact kin.nextId
    have numbered : q.roster.Numbered :=
      apply_invariant (fun _ errand numbered => numbered.serve errand)
        (fun _ _ kin => kin.numbered) applied arranged.numbered
    rw [admitted_of_passes arranged.distinct faulty applied]
    refine {
      distinct := ?_
      counted := ?_
      next := ?_
      numbered := numbered
      instances := fun e member => ?_ }
    · rw [apply_names arranged.distinct faulty applied]
      exact nodup_rearrange arranged.distinct faulty
    · rw [List.map_append, List.length_append, arranged.counted]
      cases o.newcomer? with
      | none => simp
      | some newcomer => simp [List.range_succ, arranged.next]
    · rw [next, List.length_append]
      cases o.newcomer? <;> rfl
    · -- what is there now comes from a handler that was there before, or is the newcomer
      obtain ⟨e', member', kin'⟩ := exists_kin kin.entries member
      obtain there | ⟨name, h, new, rfl⟩ := mem_rearrange member'
      · obtain ⟨first, put, grown⟩ := arranged.instances e' there
        exact ⟨first, List.mem_append_left _ put, grown.trans kin'⟩
      · refine ⟨_, List.mem_append_right _ ?_, kin'⟩
        rw [new]
        exact List.mem_singleton_self _

/-- In every state that a pipeline can be in, its handlers are `Arranged`. -/
theorem arranged_of_history {past : List (Entry H)} (history : History hooks past p) :
    Arranged hooks past p := by
  induction history with
  | @new p entries nextId _ =>
    exact {
      distinct := by rw [names, entries]; exact List.nodup_nil
      counted := rfl
      next := nextId
      numbered := by
        rw [roster, entries]
        exact ⟨List.nodup_nil, fun _ member => absurd member List.not_mem_nil⟩
      instances := by
        rw [entries]
        exact fun _ member => absurd member List.not_mem_nil }
  | operation _ applied ih => exact ih.apply applied
  | outside _ entries nextId _ ih =>
    obtain ⟨distinct, counted, next, numbered, instances⟩ := ih
    exact {
      distinct := by rwa [names, entries]
      counted := counted
      next := nextId.trans next
      numbered := by rwa [roster, entries, nextId]
      instances := by rwa [entries] }

open Operation in
/-- Nobody has the number of a handler that was taken out. -/
theorem Arranged.lacks {past : List (Entry H)} {o : Operation H} {bound : Nat} {e : Entry H}
    (arranged : Arranged hooks past p) (applied : o.apply hooks bound p = some (.ok (), q))
    (member : e ∈ p.entries) (leaves : o.leaver? = some e.name) : q.roster.Lacks e.id := by
  have given := arranged.numbered.given e.id (List.mem_map_of_mem member)
  cases faulty : o.fault? p.names with
  | some fault =>
    cases (apply_refused arranged.distinct faulty hooks bound).symm.trans applied
  | none =>
    refine (apply_rearranged arranged.distinct faulty applied).lacks
      ⟨Nat.lt_of_lt_of_le given (Nat.le_add_right ..), fun there => ?_⟩
    obtain ⟨a, there, same⟩ := List.mem_map.mp there
    obtain ⟨stays, other⟩ | ⟨name, h, -, rfl⟩ := mem_rearrange_of_leaver leaves there
    · -- whoever stays with the number is the handler itself
      obtain rfl := List.inj_on_of_nodup_map arranged.numbered.alone stays member same
      exact other rfl
    · exact absurd same (Nat.ne_of_gt given)

end Pipeline

/-! ## Blueprints -/

/-- The fresh handlers for prototypes, numbered from one number on. -/
def Hooks.freshFrom (hooks : Hooks W H) : Nat → List (String × H) → List (Entry H)
  | _, [] => []
  | id, (name, prototype) :: rest =>
    ⟨id, name, hooks.fresh prototype⟩ :: hooks.freshFrom (id + 1) rest

namespace Pipeline

variable {hooks : Hooks W H} {p q r : Pipeline W H}

/-- A pipeline to which fresh handlers for prototypes were added. -/
structure Furnished (hooks : Hooks W H) (p : Pipeline W H) (prototypes : List (String × H))
    (q : Pipeline W H) : Prop where
  history : ∃ past, History hooks past q
  distinct : (p.names ++ prototypes.map Prod.fst).Nodup
  names : q.names = p.names ++ prototypes.map Prod.fst
  entries : List.Forall₂ (Entry.Kin hooks) (p.entries ++ hooks.freshFrom p.nextId prototypes)
    q.entries

/-- What comes of adding fresh handlers for prototypes to a pipeline with a bound: all are added, if
their names are distinct and new; or the first whose name is taken is refused, and those before it
are added; or else there is nothing, since one of them put off no less than the bound. -/
inductive Added (hooks : Hooks W H) (bound : Nat) (p : Pipeline W H)
    (prototypes : List (String × H)) : Changed W H → Prop
  | all {q : Pipeline W H} (furnished : Furnished hooks p prototypes q) :
      Added hooks bound p prototypes (some (.ok (), q))
  | refused {front back : List (String × H)} {name : String} {h : H} {q : Pipeline W H}
      (split : prototypes = front ++ (name, h) :: back) (furnished : Furnished hooks p front q)
      (there : name ∈ q.names) :
      Added hooks bound p prototypes (some (.error (.state (.duplicateHandler name)), q))
  | cut {front back : List (String × H)} {name : String} {h : H} {q r : Pipeline W H}
      {journal : List (Stage H)} (split : prototypes = front ++ (name, h) :: back)
      (furnished : Furnished hooks p front q) (new : name ∉ q.names)
      (underway : Underway hooks [.enter q.entries.length name (hooks.fresh h)] journal q r)
      (long : bound ≤ journal.length) : Added hooks bound p prototypes none

theorem Furnished.nil {past : List (Entry H)} (history : History hooks past p) :
    Furnished hooks p [] p where
  history := ⟨past, history⟩
  distinct := by
    rw [List.map_nil, List.append_nil]
    exact (arranged_of_history history).distinct
  names := (List.append_nil _).symm
  entries := by
    rw [Hooks.freshFrom, List.append_nil]
    exact kin_refl hooks _

open Operation in
/-- A fresh handler for one prototype, and those for others after it. -/
theorem Furnished.cons {name : String} {prototype : H} {rest : List (String × H)} {bound : Nat}
    {result : Except Failure Unit} (distinct : p.names.Nodup)
    (passes : (Operation.addLast name (hooks.fresh prototype)).fault? p.names = none)
    (applied :
      (Operation.addLast name (hooks.fresh prototype)).apply hooks bound p = some (result, q))
    (furnished : Furnished hooks q rest r) :
    Furnished hooks p ((name, prototype) :: rest) r := by
  have names : q.names = p.names ++ [name] := apply_names distinct passes applied
  have kin := apply_rearranged distinct passes applied
  have next : q.nextId = p.nextId + 1 := kin.nextId
  refine ⟨furnished.history, ?_, ?_, kin_trans ?_ furnished.entries⟩
  · have nodup := furnished.distinct
    rwa [names, List.append_assoc] at nodup
  · have named := furnished.names
    rwa [names, List.append_assoc] at named
  · have appended : List.Forall₂ (Entry.Kin hooks)
        (p.entries ++ [⟨p.nextId, name, hooks.fresh prototype⟩] ++ hooks.freshFrom q.nextId rest)
        (q.entries ++ hooks.freshFrom q.nextId rest) :=
      List.rel_append kin.entries (kin_refl hooks _)
    rw [List.append_assoc, next] at appended
    rw [next]
    exact appended

open Operation in
/-- What comes of one prototype that is added and of those after it. -/
theorem Added.cons {name : String} {prototype : H} {rest : List (String × H)} {bound : Nat}
    {result : Except Failure Unit} {built : Changed W H} (distinct : p.names.Nodup)
    (passes : (Operation.addLast name (hooks.fresh prototype)).fault? p.names = none)
    (applied :
      (Operation.addLast name (hooks.fresh prototype)).apply hooks bound p = some (result, q))
    (added : Added hooks bound q rest built) :
    Added hooks bound p ((name, prototype) :: rest) built := by
  cases added with
  | all furnished => exact .all (furnished.cons distinct passes applied)
  | refused split furnished there =>
    exact .refused (congrArg (List.cons (name, prototype)) split)
      (furnished.cons distinct passes applied) there
  | cut split furnished free underway long =>
    exact .cut (congrArg (List.cons (name, prototype)) split)
      (furnished.cons distinct passes applied) free underway long

open Operation in
/-- `addFresh` adds the prototypes one after the other. -/
theorem added_addFresh (prototypes : List (String × H)) (bound : Nat) {past : List (Entry H)}
    (history : History hooks past p) :
    Added hooks bound p prototypes (p.addFresh hooks bound prototypes) := by
  induction prototypes generalizing past p with
  | nil => exact .all (.nil history)
  | cons first rest ih =>
    obtain ⟨name, prototype⟩ := first
    have distinct := (arranged_of_history history).distinct
    rw [addFresh]
    cases new : taken p.names name with
    | some fault =>
      rw [Pipeline.addLast, checkNew_of_taken new, after]
      obtain ⟨there, rfl⟩ := taken_eq_some.mp new
      exact .refused (List.nil_append _).symm (.nil history) there
    | none =>
      have passes : (Operation.addLast name (hooks.fresh prototype)).fault? p.names = none := new
      have planned := apply_planned hooks p (o := .addLast name (hooks.fresh prototype)) (by simp)
      obtain ⟨journal, q, tracked⟩ := planned.tracked bound
      cases applied : (Operation.addLast name (hooks.fresh prototype)).apply hooks bound p with
      | none =>
        -- the new handler put off too much, so the journal is that of its errand
        have underway := tracked.underway
        have long := tracked.le_length applied
        rw [errands, checkNew_of_free new] at underway
        rw [apply] at applied
        rw [applied]
        exact .cut (List.nil_append _).symm (.nil history) (taken_eq_none.mp new) underway long
      | some done =>
        obtain ⟨result, r⟩ := done
        obtain rfl : result = .ok () := apply_accepted distinct passes rfl applied
        have added := ih (history.operation applied)
        have put := applied
        rw [apply] at put
        rw [put]
        exact .cons distinct passes applied added

/-- `Blueprint.build` adds the prototypes to an empty pipeline, one after the other. -/
theorem added_build (hooks : Hooks W H) (b : Blueprint H) (bound : Nat) (channel : ChannelInfo)
    (world : W) (timers : Timers) :
    Added hooks bound { channel := channel, world := world, timers := timers } b.prototypes
      (b.build hooks bound channel world timers) :=
  added_addFresh b.prototypes bound (.new rfl rfl rfl)

/-- A pipeline that is built has the fresh handlers of its blueprint and came about as any other. -/
theorem furnished_of_build {b : Blueprint H} {bound : Nat} {channel : ChannelInfo} {world : W}
    {timers : Timers} (built : b.build hooks bound channel world timers = some (.ok (), q)) :
    Furnished hooks { channel := channel, world := world, timers := timers } b.prototypes q := by
  have added := added_build hooks b bound channel world timers
  rw [built] at added
  cases added with
  | all furnished => exact furnished

end Pipeline

end PeerMessaging
