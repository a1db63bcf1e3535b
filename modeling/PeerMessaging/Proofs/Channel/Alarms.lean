import PeerMessaging.Proofs.Channel.Walks

/-!
# Alarms

A handler that fails raises an alarm: its failure is told to it and to all handlers behind it, at
once, to each of them one time and from the front, and to nobody else. This is the same on every
walk, and so it is told of the calls of a walk alone: each of them is followed by its alarm, and
there are no other lessons than those of the alarms.
-/

namespace PeerMessaging

/-- Who learns of a failure in a call, and of which one. -/
def Call.lesson? (c : Call) : Option (Nat × Failure) :=
  match c.question with
  | .learn f => some (c.place, f)
  | _ => none

/-- Who is to learn of the failure of a call among so many handlers: the one that failed and all
behind it. -/
def Call.alarm (count : Nat) (c : Call) : List (Nat × Failure) :=
  match c.answer with
  | .fail f => (List.range' c.place (count - c.place)).map fun place => (place, f)
  | _ => []

namespace Pipeline

variable {W H : Type} {hooks : Hooks W H} {p q r : Pipeline W H}

/-- Who learns of what in some calls, in the order of the calls. -/
def lessons (calls : List Call) : List (Nat × Failure) := calls.filterMap Call.lesson?

/-- The failures of some calls are told as they should be: what is told is just the alarms, and each
call is followed by its alarm at once. -/
structure Routed (count : Nat) (calls : List Call) : Prop where
  told : lessons calls = calls.flatMap (Call.alarm count)
  atOnce : ∀ front c back, calls = front ++ c :: back →
    ∃ told rest, back = told ++ rest ∧ told.map Call.lesson? = (c.alarm count).map some

theorem mem_of_split {α : Type} {l front back : List α} {a : α} (split : l = front ++ a :: back) :
    a ∈ l := split ▸ List.mem_append_right front List.mem_cons_self

/-- A place in two lists that are put together is in the first or behind it. -/
theorem split_append {α : Type} {first second front back : List α} {a : α}
    (split : first ++ second = front ++ a :: back) :
    a ∈ first ∨ ∃ front', front = first ++ front' ∧ second = front' ++ a :: back := by
  obtain ⟨rest, rfl, rfl⟩ | ⟨rest, rfl, same⟩ := List.append_eq_append_iff.mp split
  · exact .inr ⟨rest, rfl, rfl⟩
  · cases rest with
    | nil => exact .inr ⟨[], by simp, same.symm⟩
    | cons a' rest =>
      obtain ⟨rfl, -⟩ := List.cons.inj same
      exact .inl (List.mem_append_right _ List.mem_cons_self)

namespace Routed

variable {count : Nat} {c : Call} {told calls : List Call}

theorem nil : Routed count [] := ⟨rfl, fun _ _ _ split => absurd split.symm (by simp)⟩

/-- A call, its alarm, and what follows. -/
theorem cons (asks : c.lesson? = none)
    (alarm : told.map Call.lesson? = (c.alarm count).map some)
    (calm : ∀ c' ∈ told, c'.alarm count = []) (rest : Routed count calls) :
    Routed count (c :: (told ++ calls)) where
  told := by
    have learned : lessons told = c.alarm count :=
      calc lessons told = (told.map Call.lesson?).filterMap id := by
            rw [List.filterMap_map]
            rfl
        _ = ((c.alarm count).map some).filterMap id := by rw [alarm]
        _ = (c.alarm count).filterMap some := List.filterMap_map
        _ = c.alarm count := List.filterMap_some
    have quiet : told.flatMap (Call.alarm count) = [] := List.flatMap_eq_nil_iff.mpr calm
    rw [List.flatMap_cons, List.flatMap_append, quiet, ← rest.told, ← learned, lessons,
      List.filterMap_cons_none asks, List.filterMap_append]
    rfl
  atOnce front c' back split := by
    cases front with
    | nil =>
      obtain ⟨rfl, rfl⟩ := List.cons.inj split
      exact ⟨told, calls, rfl, alarm⟩
    | cons first front =>
      obtain ⟨rfl, split'⟩ := List.cons.inj split
      obtain member | ⟨front', -, split''⟩ := split_append split'
      · -- who is told of a failure does not fail itself, so nothing has to follow
        exact ⟨[], back, rfl, by rw [calm c' member]; rfl⟩
      · exact rest.atOnce front' c' back split''

/-- A call without an alarm. -/
theorem cons_calm (asks : c.lesson? = none) (calm : c.alarm count = [])
    (rest : Routed count calls) : Routed count (c :: calls) := by
  have untold : ([] : List Call).map Call.lesson? = (c.alarm count).map some := by
    rw [calm]
    rfl
  exact cons asks untold (fun _ member => absurd member List.not_mem_nil) rest

end Routed

section Calls

variable {place : Nat} {question : Question} {answer : Answer} {c : Call} {f : Failure}

/-- A call that is not about a failure teaches none. -/
theorem Asks.lesson?_eq_none (asks : Asks hooks place question answer c p q)
    (teaches : ∀ f, question ≠ .learn f) : c.lesson? = none := by
  rw [Call.lesson?, asks.question]
  split
  · exact absurd rfl (teaches _)
  · rfl

/-- A call that does not fail raises no alarm. -/
theorem Asks.alarm_eq_nil (asks : Asks hooks place question answer c p q)
    (well : ∀ f, answer ≠ .fail f) (count : Nat) : c.alarm count = [] := by
  rw [Call.alarm, asks.answer]
  split
  · exact absurd rfl (well _)
  · rfl

/-- When `f` is told, each place learns of `f`, in order. -/
theorem Told.lessons {places : List Nat} {calls : List Call}
    (told : Told hooks f places calls p q) :
    calls.map Call.lesson? = places.map fun place => some (place, f) := by
  induction told with
  | nil => rfl
  | cons head _ ih =>
    rw [List.map_cons, List.map_cons, ih, Call.lesson?, head.question, head.place]

/-- Handlers that are told of a failure do not fail themselves. -/
theorem Told.answers {places : List Nat} {calls : List Call}
    (told : Told hooks f places calls p q) : ∀ c ∈ calls, c.answer = .done := by
  induction told with
  | nil => exact fun _ member => absurd member List.not_mem_nil
  | cons head _ ih => exact List.forall_mem_cons.mpr ⟨head.answer, ih⟩

/-- A handler fails, and this is told to it and to all behind it. -/
theorem Asks.routed {told calls : List Call} (head : Asks hooks place question (.fail f) c p q)
    (teaches : ∀ f, question ≠ .learn f) (alarm : Told hooks f (q.placesFrom place) told q r)
    (rest : Routed p.entries.length calls) : Routed p.entries.length (c :: (told ++ calls)) := by
  refine .cons (head.lesson?_eq_none teaches) ?_ (fun c' member => ?_) rest
  · rw [alarm.lessons, Call.alarm, head.answer, head.place, placesFrom, head.steady.length,
      List.map_map]
    rfl
  · rw [Call.alarm, alarm.answers c' member]

end Calls

/-- On the walk of a signal failures are told to the places from the failed handler on. -/
theorem Heard.routed {s : Signal} {places : List Nat} {calls : List Call}
    (heard : Heard hooks s places calls p q) : Routed p.entries.length calls := by
  induction heard with
  | nil => exact .nil
  | aside _ _ _ ih => exact ih
  | calm head _ ih =>
    rw [head.steady.length] at ih
    exact .cons_calm (head.lesson?_eq_none nofun) (head.alarm_eq_nil nofun _) ih
  | alarmed head alarm _ ih =>
    rw [(head.steady.trans alarm.steady).length] at ih
    exact head.routed nofun alarm ih

theorem Way.question_ne_learn (way : Way) (item : Item) (f : Failure) :
    way.question item ≠ .learn f := by
  cases way <;> nofun

/-- On the way of an item failures are told to the places from the failed handler on. -/
theorem Carried.routed {way : Way} {places : List Nat} {item : Item} {calls : List Call}
    {ending : Ending} (carried : Carried hooks way places item calls ending p q) :
    Routed p.entries.length calls := by
  induction carried with
  | arrived => exact .nil
  | aside _ _ _ ih => exact ih
  | passed head _ ih =>
    rw [head.steady.length] at ih
    exact .cons_calm (head.lesson?_eq_none (way.question_ne_learn _)) (head.alarm_eq_nil nofun _) ih
  | kept head =>
    exact .cons_calm (head.lesson?_eq_none (way.question_ne_learn _)) (head.alarm_eq_nil nofun _)
      .nil
  | failed head alarm =>
    -- the walk ends with the alarm
    have routed := head.routed (way.question_ne_learn _) alarm .nil
    rwa [List.append_nil] at routed

end Pipeline

end PeerMessaging
