import PeerMessaging.Proofs.Channel.Departure

/-!
# Where failures go

The alarm of a handler that fails is the same on every walk. What becomes of the walk is another
matter. The way of an item ends where a handler fails, and the item is neither left over nor sent. A
signal goes on behind the handler that failed. And what an operation gives as its result is fixed
before anything is done that was put off: it is the verdict on the item that was to be written, or
whether a change was allowed.

None of this needs that the operation comes to an end. It holds of every stage that is reached,
with whatever bound.
-/

namespace PeerMessaging

theorem Answer.ofWrite_ne_keep (result : Except Failure Item) : ofWrite result ≠ keep := by
  cases result <;> nofun

namespace Pipeline

variable {W H : Type} {hooks : Hooks W H} {p q r : Pipeline W H}

/-! ## What becomes of the walk -/

/-- An item that came through met no failure. -/
theorem Carried.untold {way : Way} {places : List Nat} {item : Item} {calls : List Call}
    {ending : Ending} (carried : Carried hooks way places item calls ending p q) {last : Item}
    (through : ending = .through last) : lessons calls = [] := by
  induction carried with
  | arrived => rfl
  | aside _ _ _ ih => exact ih through
  | passed head _ ih =>
    exact (List.filterMap_cons_none (head.lesson?_eq_none (way.question_ne_learn _))).trans
      (ih through)
  | kept _ => cases through
  | failed _ _ => cases through

/-- The way of an item ends with the first failure, and nobody else is asked about the item. -/
theorem Carried.stops {way : Way} {places : List Nat} {item : Item} {calls front back : List Call}
    {ending : Ending} (carried : Carried hooks way places item calls ending p q) {c : Call}
    {f : Failure} (split : calls = front ++ c :: back) (failed : c.answer = .fail f) :
    ending = .failed f ∧ ∀ c' ∈ back, c'.question = .learn f := by
  induction carried generalizing front with
  | arrived => exact absurd split.symm (by simp)
  | aside _ _ _ ih => exact ih split
  | passed head _ ih =>
    cases front with
    | nil =>
      obtain ⟨rfl, -⟩ := List.cons.inj split
      cases head.answer.symm.trans failed
    | cons first front => exact ih (List.cons.inj split).2
  | kept head =>
    obtain rfl := List.mem_singleton.mp (mem_of_split split)
    cases head.answer.symm.trans failed
  | failed head alarm =>
    cases front with
    | nil =>
      obtain ⟨rfl, rfl⟩ := List.cons.inj split
      cases head.answer.symm.trans failed
      exact ⟨rfl, alarm.questions⟩
    | cons first front =>
      cases (alarm.answers c (mem_of_split (List.cons.inj split).2)).symm.trans failed

/-- An item that is written is kept by no handler. -/
theorem Carried.written {places : List Nat} {item : Item} {calls : List Call} {ending : Ending}
    (carried : Carried hooks .outward places item calls ending p q) :
    (∃ last, ending = .through last) ∨ ∃ f, ending = .failed f := by
  induction carried with
  | arrived => exact .inl ⟨_, rfl⟩
  | aside _ _ _ ih => exact ih
  | passed _ _ ih => exact ih
  | kept head =>
    obtain ⟨made, -, asked, kept⟩ := head
    cases made with
    | @intro _ _ e question =>
      obtain rfl : question = .turn _ := asked
      exact absurd kept (Answer.ofWrite_ne_keep _)
  | failed _ _ => exact .inr ⟨_, rfl⟩

/-- A signal goes on behind the handler that was asked to hear it, whatever the answer. -/
theorem Heard.goesOn {s : Signal} {places : List Nat} {calls front back : List Call}
    (heard : Heard hooks s places calls p q) {l : List (Entry H)}
    (stand : List.Forall₂ (StandsAt hooks p) places l) {c : Call}
    (split : calls = front ++ c :: back) (asked : c.question = .hear s) :
    ∃ before after, places = before ++ c.place :: after ∧
      Reaches hooks s (l.drop (before.length + 1)) back := by
  -- the handler stands at the first place of the walk, where `front` is empty, or further on
  induction heard generalizing l front with
  | nil => exact absurd split.symm (by simp)
  | aside _ _ _ ih =>
    obtain _ | ⟨_, rest⟩ := stand
    obtain ⟨before, after, rfl, reaches⟩ := ih rest split
    exact ⟨_ :: before, after, rfl, reaches⟩
  | calm head tail ih =>
    obtain _ | ⟨_, rest⟩ := stand
    have rest' := rest.imp fun _ _ => StandsAt.later head.steady
    cases front with
    | nil =>
      obtain ⟨rfl, rfl⟩ := List.cons.inj split
      exact ⟨[], _, by rw [head.place]; rfl, tail.reaches rest'⟩
    | cons first front =>
      obtain ⟨before, after, rfl, reaches⟩ := ih rest' (List.cons.inj split).2
      exact ⟨_ :: before, after, rfl, reaches⟩
  | alarmed head alarm tail ih =>
    obtain _ | ⟨_, rest⟩ := stand
    have rest' := rest.imp fun _ _ => StandsAt.later (head.steady.trans alarm.steady)
    cases front with
    | nil =>
      obtain ⟨rfl, rfl⟩ := List.cons.inj split
      obtain ⟨met, kin, heard⟩ := tail.reaches rest'
      exact ⟨[], _, by rw [head.place]; rfl, met, kin, (hearers_of_told alarm _).trans heard⟩
    | cons first front =>
      -- the call is not one of the alarm, since it is about the signal
      obtain learns | ⟨front', -, split'⟩ := split_append (List.cons.inj split).2
      · cases (alarm.questions c learns).symm.trans asked
      · obtain ⟨before, after, rfl, reaches⟩ := ih rest' split'
        exact ⟨_ :: before, after, rfl, reaches⟩

/-- A place in `placesFrom start` is `start` and the number of places before it. -/
theorem add_length_of_placesFrom {start place : Nat} {before after : List Nat}
    (split : p.placesFrom start = before ++ place :: after) : start + before.length = place := by
  have there : (p.placesFrom start)[before.length]? = some place := by
    rw [split, List.getElem?_append_right (Nat.le_refl _), Nat.sub_self]
    rfl
  obtain ⟨within, same⟩ := List.getElem?_eq_some_iff.mp there
  simpa [placesFrom, List.getElem_range'] using same

/-! ## Stages -/

/-- Failures go where they should in one stage of a journal, in which the handlers are the given
ones. Every call is one of the handler at its place, and its failure is told at once to it and to
all behind it, to each one time and in order, and there are no other lessons. Nobody sees an item
behind a handler that failed on it, and it is neither left nor sent. A signal for all goes on behind
the handler that failed on it. An item that is written comes through or fails, and nobody learns of
anything when an item comes through. -/
structure Stage.Routes (hooks : Hooks W H) (l : List (Entry H)) (stage : Stage H) : Prop where
  stands : ∀ c ∈ stage.calls, ∃ e, l[c.place]? = some e ∧ c.id = e.id
  routed : Routed l.length stage.calls
  stops : ∀ front c back way item f, stage.calls = front ++ c :: back →
    c.question = Way.question way item → c.answer = .fail f →
      stage.ending = .failed f ∧ stage.left = [] ∧ stage.sent = [] ∧
        ∀ c' ∈ back, c'.question = .learn f
  goesOn : ∀ front c back s, stage.calls = front ++ c :: back → c.question = .hear s →
    s ≠ .added → s ≠ .timer → Reaches hooks s (l.drop (c.place + 1)) back
  decided : ∀ item, stage.errand = .write item →
    (∃ last, stage.ending = .through last) ∨ ∃ f, stage.ending = .failed f
  through : ∀ item, stage.ending = .through item → lessons stage.calls = []

/-- In the stage of an item, failures are routed from the failed handler on. -/
theorem Stage.Routes.of_carried {l : List (Entry H)} {way : Way} {places : List Nat} {item : Item}
    {calls : List Call} {ending : Ending}
    (carried : Carried hooks way places item calls ending p q)
    (kin : List.Forall₂ (Entry.Kin hooks) l p.entries) (cause : Option Deferred)
    {errand : Errand H} (outward : ∀ item, errand = .write item → way = .outward) :
    Routes hooks l ⟨cause, errand, calls, ending⟩ where
  stands c member := by
    obtain ⟨e, -, -, -, stands, -, id, -⟩ := (carried.isOf c member).of_kin kin
    exact ⟨e, stands, id⟩
  routed := kin.length_eq ▸ carried.routed
  stops front c back way' item' f split _ failed := by
    obtain ⟨rfl, learn⟩ := carried.stops split failed
    refine ⟨rfl, ?_, ?_, learn⟩
    · cases errand <;> rfl
    · cases errand <;> rfl
  goesOn front c back s split asked := by
    have member : c ∈ calls := mem_of_split split
    obtain ⟨item', asked'⟩ | ⟨f, asked'⟩ := carried.questions c member
    · cases way <;> cases asked.symm.trans asked'
    · cases asked.symm.trans asked'
  decided item same := by
    obtain rfl := outward item same
    exact carried.written
  through _ same := carried.untold same

/-- In the stage of a signal, failures are routed from the failed handler on. -/
theorem Stage.Routes.of_heard {l : List (Entry H)} {s : Signal} {places : List Nat}
    {calls : List Call} (heard : Heard hooks s places calls p q)
    (kin : List.Forall₂ (Entry.Kin hooks) l p.entries)
    (spread : s ≠ .added → s ≠ .timer → ∃ start, places = p.placesFrom start)
    (cause : Option Deferred) {errand : Errand H} (others : ∀ item, errand ≠ .write item) :
    Routes hooks l ⟨cause, errand, calls, .over⟩ where
  stands c member := by
    obtain ⟨e, -, -, -, stands, -, id, -⟩ := (heard.isOf c member).of_kin kin
    exact ⟨e, stands, id⟩
  routed := kin.length_eq ▸ heard.routed
  stops front c back way item f split asked := by
    have member : c ∈ calls := mem_of_split split
    obtain asked' | ⟨f, asked'⟩ := heard.questions c member
    · cases way <;> cases asked.symm.trans asked'
    · cases way <;> cases asked.symm.trans asked'
  goesOn front c back s' split asked added timer := by
    have member : c ∈ calls := mem_of_split split
    obtain asked' | ⟨f, asked'⟩ := heard.questions c member
    · cases asked.symm.trans asked'
      -- but for these two a signal walks over all places from one on, so nobody is left out
      obtain ⟨start, rfl⟩ := spread added timer
      obtain ⟨before, after, there, reaches⟩ :=
        heard.goesOn (standsAt_placesFrom kin start) split asked
      rw [List.drop_drop, ← Nat.add_assoc, add_length_of_placesFrom there] at reaches
      exact reaches
    · cases asked.symm.trans asked'
  decided item same := absurd same (others item)
  through _ same := nomatch same

/-- In the stage of any errand but that of a handler that goes, failures go where they should. -/
theorem Performs.routes {l : List (Entry H)} {errand : Errand H} {calls : List Call}
    {ending : Ending} (performs : Performs hooks errand calls ending p q)
    (stays : ∀ place, errand ≠ .leave place)
    (kin : List.Forall₂ (Entry.Kin hooks) l (p.begun errand).entries) (cause : Option Deferred) :
    Stage.Routes hooks l ⟨cause, errand, calls, ending⟩ := by
  cases performs with
  | read walk => exact .of_carried walk kin cause (by simp)
  | sent walk => exact .of_carried walk kin cause fun _ _ => rfl
  | unsent walk _ => exact .of_carried walk kin cause fun _ _ => rfl
  | spread walk => exact .of_heard walk kin (fun _ _ => ⟨_, rfl⟩) cause (by simp)
  | switch walk => exact .of_heard walk kin (fun _ _ => ⟨_, rfl⟩) cause (by simp)
  | ring walk => exact .of_heard walk kin (fun _ timer => absurd rfl timer) cause (by simp)
  | enter walk => exact .of_heard walk kin (fun added _ => absurd rfl added) cause (by simp)
  | leave _ => exact absurd rfl (stays _)

/-- In the stages of a journal failures go where they should, except when a handler goes. -/
theorem Chronicle.routes {l : Roster H} {front back journal : List (Stage H)} {stage : Stage H}
    (chronicle : Chronicle hooks l journal) (split : journal = front ++ stage :: back)
    (stays : ∀ place, stage.errand ≠ .leave place) :
    stage.Routes hooks (((front ++ [stage]).map Stage.errand).foldl Roster.serve l).entries := by
  obtain ⟨⟨m, n, kin, performs⟩, -⟩ := chronicle front stage back split
  refine performs.routes stays ?_ stage.cause
  rw [begun_entries m stays, List.map_append, List.foldl_append]
  exact (kin.serve stage.errand).entries

end Pipeline

namespace Operation

open Pipeline

variable {W H : Type} {hooks : Hooks W H} {p q : Pipeline W H} {o : Operation H}

/-- What becomes of failures in an operation with a bound. The journal tells the stages from one
pipeline to another: all of them if the operation comes to its result, and no fewer than the bound
if it does not. In each stage, except when a handler goes, failures go where they should, and what
is left and sent is what the stages leave and send. The result is the verdict on the item if one is
to be written, which is the first stage, and whether the change is allowed otherwise. -/
structure Alarms (hooks : Hooks W H) (bound : Nat) (o : Operation H) (journal : List (Stage H))
    (result : Except Failure Unit) (p q : Pipeline W H) : Prop where
  underway : Underway hooks (o.errands p) journal p q
  ended : ∀ result' q', o.apply hooks bound p = some (result', q') →
    result' = result ∧ q' = q ∧ Accounts hooks (o.errands p) journal p q
  cut : o.apply hooks bound p = none → bound ≤ journal.length
  routes : ∀ front stage back, journal = front ++ stage :: back →
    (∀ place, stage.errand ≠ .leave place) →
      stage.Routes hooks (((front ++ [stage]).map Stage.errand).foldl Roster.serve p.roster).entries
  balanced : Balanced hooks journal p q
  write : ∀ item, o = .write item → ∃ calls ending rest,
    journal = ⟨none, .write item, calls, ending⟩ :: rest ∧ result = ending.verdict
  others : (∀ item, o ≠ .write item) → result = o.checked p

/-- What the journal of an operation tracks is all that `Alarms` says of it. -/
theorem Alarms.of_tracked {bound : Nat} {result : Except Failure Unit} {journal : List (Stage H)}
    (tracked : Tracked hooks bound result (o.errands p) (o.apply hooks bound p) journal p q)
    (write : ∀ item, o = .write item → ∃ calls ending rest,
      journal = ⟨none, .write item, calls, ending⟩ :: rest ∧ result = ending.verdict)
    (others : (∀ item, o ≠ .write item) → result = o.checked p) :
    Alarms hooks bound o journal result p q := by
  exact {
    underway := tracked.underway
    ended := fun _ _ applied => tracked.accounts applied
    cut := tracked.le_length
    routes := fun _ _ _ split stays => tracked.underway.chronicle.routes split stays
    balanced := tracked.underway.balanced
    write := write
    others := others }

/-- **A failure is told to the handlers from the failed one on**: every operation on every pipeline,
with any hooks and any bound, has a journal with the `Alarms` of its failures. -/
theorem apply_alarms (hooks : Hooks W H) (bound : Nat) (p : Pipeline W H) (o : Operation H) :
    ∃ journal result q, Alarms hooks bound o journal result p q := by
  -- the result of writing is known only after the walk, that of anything else before it
  by_cases writes : ∃ item, o = .write item
  · obtain ⟨item, rfl⟩ := writes
    obtain ⟨calls, ending, m, performs, applied⟩ := write_planned hooks p item
    obtain ⟨journal, q, tracked⟩ := performs.tracked ((applied bound).trans Option.map_eq_bind)
      fun _ r _ => ⟨[], r, .ended .done⟩
    refine ⟨_, _, q, .of_tracked tracked ?_ fun others => absurd rfl (others item)⟩
    rintro _ ⟨⟩
    exact ⟨calls, ending, journal, rfl, rfl⟩
  · have others : ∀ item, o ≠ .write item := fun item same => writes ⟨item, same⟩
    obtain ⟨journal, q, tracked⟩ := (apply_planned hooks p others).tracked bound
    exact ⟨journal, _, q, .of_tracked tracked (fun item same => absurd same (others item))
      fun _ => rfl⟩

end Operation

end PeerMessaging
