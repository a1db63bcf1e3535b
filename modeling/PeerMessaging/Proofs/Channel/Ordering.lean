import PeerMessaging.Proofs.Channel.Draining

/-!
# Pipelines are ordered lists

What was shown of the handlers of a pipeline is put together here: it is an ordered list of handlers
with distinct names, an operation changes it as it changes a list, and a timer that rings is heard
by the handler that has its number.

A change works off what handlers put off when they come and go, so with a bound that is too low it
has no result. Therefore each statement tells what comes of an operation with every bound: either a
result, which no larger bound changes, or a journal of no fewer stages than the bound. Discreet
handlers put off so little that there always is a result, and a pipeline of them is always built or
refused.
-/

namespace PeerMessaging

variable {W H : Type}

namespace Pipeline

variable {hooks : Hooks W H} {p q r : Pipeline W H}

/-! ## Larger bounds -/

/-- A queue that is worked off with one bound is worked off with a larger one to the same end. -/
theorem settle_of_le {bound more : Nat} (settled : p.settle hooks bound = some q)
    (larger : bound ≤ more) : p.settle hooks more = some q := by
  fun_induction settle hooks bound p generalizing more with
  | case1 bound p queue =>
    cases settled
    exact settle_idle queue more
  | case2 p d waiting queue => cases settled
  | case3 p d waiting queue bound ih =>
    obtain ⟨more, rfl⟩ := Nat.exists_eq_add_of_le' (Nat.one_le_of_lt larger)
    exact (settle_next queue more).trans (ih settled (Nat.le_of_succ_le_succ larger))

/-- What is planned and gives a result with one bound gives it with every larger one. -/
theorem Planned.given_of_le {result : Except Failure Unit} {errands : List (Errand H)}
    {f : Nat → Option (Except Failure Unit × Pipeline W H)}
    (planned : Planned hooks result errands f p) {bound more : Nat}
    {done : Except Failure Unit × Pipeline W H} (given : f bound = some done)
    (larger : bound ≤ more) : f more = some done := by
  induction planned with
  | done same => exact (same more).trans ((same bound).symm.trans given)
  | next performs same _ ih =>
    rw [same] at given
    obtain ⟨r, settled, given⟩ := Option.bind_eq_some_iff.mp given
    obtain ⟨stages, drains⟩ := settle_drains settled
    rw [same, settle_of_le settled larger]
    exact ih stages r drains given

/-! ## Changes -/

/-- What comes of an operation that is not refused, with a bound. The journal tells the stages from
one pipeline to another: all of them if there is a result, and no fewer than the bound if there is
none. With a result the names and the handlers are those of the list after the operation, and a
change of the arrangement is accepted. Until then the handlers are those that the errands begun so
far leave. -/
structure Rearranges (hooks : Hooks W H) (bound : Nat) (o : Operation H) (journal : List (Stage H))
    (result : Except Failure Unit) (p q : Pipeline W H) : Prop where
  underway : Underway hooks (o.errands p) journal p q
  ended : ∀ result' q', o.apply hooks bound p = some (result', q') →
    result' = result ∧ q' = q ∧
      q.names = o.rearrange id (fun name _ => name) p.names ∧
      (o.rearranged p).Kin hooks q.roster
  cut : o.apply hooks bound p = none → bound ≤ journal.length
  accepted : o.arranges = true → result = .ok ()
  amid : ∃ begun, begun <+: o.errands p ∧ (begun.foldl Roster.serve p.roster).Kin hooks q.roster

open Operation in
/-- An operation that is not refused comes out as it should with every bound. -/
theorem exists_rearranges (distinct : p.names.Nodup) {o : Operation H}
    (passes : o.fault? p.names = none) (hooks : Hooks W H) (bound : Nat) :
    ∃ journal result q, Rearranges hooks bound o journal result p q := by
  have ⟨result, planned, accepted⟩ : ∃ result,
      Planned hooks result (o.errands p) (fun bound => o.apply hooks bound p) p ∧
        (o.arranges = true → result = .ok ()) := by
    cases arranges : o.arranges with
    | true =>
      exact ⟨_, apply_planned hooks p (ne_write_of_arranges arranges),
        fun _ => checked_of_passes distinct passes⟩
    | false =>
      obtain ⟨result, planned⟩ := exists_planned hooks p o
      exact ⟨result, planned, nofun⟩
  obtain ⟨journal, q, tracked⟩ := planned.tracked bound
  refine ⟨journal, result, q, {
    underway := tracked.underway
    ended := fun result' q' applied => ?_
    cut := tracked.le_length
    accepted := accepted
    amid := tracked.underway.roster }⟩
  obtain ⟨rfl, rfl, -⟩ := tracked.accounts applied
  exact ⟨rfl, rfl, apply_names distinct passes applied, apply_rearranged distinct passes applied⟩

/-! ## Timers -/

/-- What happens when the timer of a handler at a place rings, with a bound. The first call of the
journal asks this handler to hear its timer, and there is no other such call. The journal is whole
if there is a result, and has no fewer stages than the bound if there is none. -/
structure Rings (hooks : Hooks W H) (bound : Nat) (e : Entry H) (place : Nat)
    (journal : List (Stage H)) (p q : Pipeline W H) : Prop where
  stands : p.entries[place]? = some e
  underway : Underway hooks [.ring place] journal p q
  called : ∃ c calls answer m, journal.flatMap Stage.calls = c :: calls ∧
    Asks hooks place (.hear .timer) answer c p m ∧ c.id = e.id ∧
    ∀ c' ∈ calls, c'.question ≠ .hear .timer
  ended : ∀ q', p.ringTimer hooks bound e.id = some q' →
    q' = q ∧ Accounts hooks [.ring place] journal p q
  cut : p.ringTimer hooks bound e.id = none → bound ≤ journal.length

/-- A timer that rings is heard by the handler with its number. -/
theorem exists_rings (alone : p.roster.ids.Nodup) {e : Entry H} (member : e ∈ p.entries)
    (hooks : Hooks W H) (bound : Nat) :
    ∃ place journal q, Rings hooks bound e place journal p q := by
  obtain ⟨place, found, stands⟩ := placeOfId_of_mem alone member
  have planned := Operation.apply_planned hooks p (o := .ringTimer e.id) (by simp)
  have errands : Operation.errands p (.ringTimer e.id) = [.ring place] := by
    rw [Operation.errands, found]
  rw [errands] at planned
  obtain ⟨calls, ending, journal, q, tracked⟩ := planned.begins bound
  obtain ⟨c, more, answer, m, called, asks, untimed⟩ := tracked.underway.ring
  refine ⟨place, _, q, {
    stands := stands
    underway := tracked.underway
    called := ⟨c, more, answer, m, called, asks, asks.id_eq stands, untimed⟩
    ended := fun q' rung => ?_
    cut := fun unrung => tracked.le_length (congrArg Operation.accepted unrung) }⟩
  obtain ⟨-, same, accounts⟩ := tracked.accounts (congrArg Operation.accepted rung)
  exact ⟨same, accounts⟩

/-! ## Blueprints -/

/-- Fresh handlers that are discreet are added up to the last, or to the first that is refused. -/
theorem addFresh_finishes {prototypes : List (String × H)} {past : List (Entry H)}
    (history : History hooks past p) (discreet : Discreet hooks p.entries)
    (fresh : ∀ prototype ∈ prototypes, hooks.Discreet (hooks.fresh prototype.2)) :
    ∃ done, Finishes (fun bound => p.addFresh hooks bound prototypes) done := by
  induction prototypes generalizing past p with
  | nil => exact ⟨_, 0, fun _ _ => rfl⟩
  | cons first rest ih =>
    obtain ⟨name, prototype⟩ := first
    obtain ⟨head, tail⟩ := List.forall_mem_cons.mp fresh
    have newcomer : ∀ name' h, (Operation.addLast name (hooks.fresh prototype)).newcomer? =
        some (name', h) → hooks.Discreet h := by
      rintro _ _ ⟨⟩
      exact head
    obtain ⟨result, q, journal, ⟨least, enough⟩, accounts⟩ :=
      Operation.apply_finishes hooks p (.addLast name (hooks.fresh prototype)) discreet newcomer
    have added (bound : Nat) (larger : least ≤ bound) :
        p.addLast hooks bound name (hooks.fresh prototype) = some (result, q) := enough bound larger
    cases result with
    | error f =>
      refine ⟨(.error f, q), least, fun bound larger => ?_⟩
      show p.addFresh hooks bound ((name, prototype) :: rest) = _
      rw [addFresh, added bound larger]
    | ok _ =>
      have later : Discreet hooks q.entries := accounts.discreet discreet fun _ name' h enters =>
        newcomer name' h (Operation.newcomer?_of_enter enters)
      obtain ⟨done, least', enough'⟩ :=
        ih (history.operation (enough least (Nat.le_refl _))) later tail
      refine ⟨done, max least least', fun bound larger => ?_⟩
      show p.addFresh hooks bound ((name, prototype) :: rest) = _
      rw [addFresh, added bound (le_of_max_le_left larger)]
      exact enough' bound (le_of_max_le_right larger)

/-- What comes of a blueprint with each bound. With a result, it is built precisely if the names of
its prototypes are distinct, and then its handlers are fresh ones of its prototypes in order; else
the first prototype whose name is taken is refused, and those before it are in the pipeline. Without
a result, some prototype with a new name puts off no less than the bound when it is added. There is
a result if all fresh handlers are discreet. -/
structure Built (hooks : Hooks W H) (b : Blueprint H) (build : Nat → Changed W H) : Prop where
  succeeds : ∀ bound, build bound ≠ none →
    ((∃ q, build bound = some (.ok (), q)) ↔ (b.prototypes.map Prod.fst).Nodup)
  ok : ∀ bound q, build bound = some (.ok (), q) →
    (∃ past, History hooks past q) ∧ q.names = b.prototypes.map Prod.fst ∧
      List.Forall₂ (Entry.Kin hooks) (hooks.freshFrom 0 b.prototypes) q.entries
  refused : ∀ bound f q, build bound = some (.error f, q) → ∃ front name h back,
    b.prototypes = front ++ (name, h) :: back ∧ (front.map Prod.fst).Nodup ∧
      name ∈ front.map Prod.fst ∧ f = .state (.duplicateHandler name) ∧
      (∃ past, History hooks past q) ∧ q.names = front.map Prod.fst
  cut : ∀ bound, build bound = none → ∃ front name h back q journal r,
    b.prototypes = front ++ (name, h) :: back ∧ (front.map Prod.fst ++ [name]).Nodup ∧
      (∃ past, History hooks past q) ∧ q.names = front.map Prod.fst ∧
      Underway hooks [.enter q.entries.length name (hooks.fresh h)] journal q r ∧
      bound ≤ journal.length
  finishes : (∀ prototype ∈ b.prototypes, hooks.Discreet (hooks.fresh prototype.2)) →
    ∃ done, Finishes build done

/-- `Blueprint.build` is `Built`: it fails exactly for a name that is there twice, or else puts one
handler for each prototype into the pipeline. -/
theorem built_build (hooks : Hooks W H) (b : Blueprint H) (channel : ChannelInfo) (world : W)
    (timers : Timers) :
    Built hooks b fun bound => b.build hooks bound channel world timers := by
  have added (bound : Nat) := added_build hooks b bound channel world timers
  refine {
    succeeds := fun bound => ?_
    ok := fun bound q built => ?_
    refused := fun bound f q built => ?_
    cut := fun bound built => ?_
    finishes := fun fresh => addFresh_finishes (.new rfl rfl rfl) nofun fresh }
  · specialize added bound
    generalize b.build hooks bound channel world timers = built at added
    intro given
    cases added with
    | all furnished => exact ⟨fun _ => furnished.distinct, fun _ => ⟨_, rfl⟩⟩
    | refused split furnished there =>
      rw [furnished.names] at there
      refine ⟨fun ⟨_, built⟩ => (nomatch built), fun distinct => ?_⟩
      rw [split, List.map_append, List.map_cons, List.nodup_middle, List.nodup_cons] at distinct
      exact absurd (List.mem_append_left _ there) distinct.1
    | cut => exact absurd rfl given
  · obtain ⟨history, -, names, entries⟩ := furnished_of_build built
    exact ⟨history, names, entries⟩
  · specialize added bound
    rw [built] at added
    cases added with
    | refused split furnished there =>
      have names := furnished.names
      rw [names] at there
      exact ⟨_, _, _, _, split, furnished.distinct, there, rfl, furnished.history, names⟩
  · -- the one prototype with a new name that puts off too much
    specialize added bound
    rw [built] at added
    cases added with
    | cut split furnished new underway long =>
      have names := furnished.names
      rw [names] at new
      refine ⟨_, _, _, _, _, _, _, split, ?_, furnished.history, names, underway, long⟩
      rw [List.nodup_append_comm]
      exact List.nodup_cons.mpr ⟨new, furnished.distinct⟩

/-! ## The main result -/

/-- A pipeline is an ordered list of handlers with distinct names. A change is refused precisely if
its anchor is missing or another handler has the new name. Then the pipeline is as it was, the world
included, and it is so whatever hooks the handlers have, so none of them is run. Otherwise the names
and the handlers become those of the list after the change, and no other operation changes them. A
timer that rings is heard by the handler with its number as long as it is there, and by nobody else.
Once the handler is taken out nothing ever happens again when it rings, whatever is put in later and
whatever the hooks, and nothing happens when a number rings that nobody has. A result is the same
with every larger bound, and there is one if all handlers are discreet. -/
structure Orderly (hooks : Hooks W H) (past : List (Entry H)) (p : Pipeline W H) : Prop where
  arranged : Arranged hooks past p
  refused : ∀ (o : Operation H) fault, o.fault? p.names = some fault →
    ∀ (hooks' : Hooks W H) bound, o.apply hooks' bound p = some (.error (.state fault), p)
  changed : ∀ o : Operation H, o.fault? p.names = none → ∀ bound, ∃ journal result q,
    Rearranges hooks bound o journal result p q
  rings : ∀ e ∈ p.entries, ∀ bound, ∃ place journal q, Rings hooks bound e place journal p q
  silenced : ∀ (o : Operation H) bound q, o.apply hooks bound p = some (.ok (), q) →
    ∀ e ∈ p.entries, o.leaver? = some e.name → ∀ later,
      Relation.ReflTransGen (Moves hooks) q later → ∀ (hooks' : Hooks W H) bound,
        later.ringTimer hooks' bound e.id = some later
  gone : ∀ id, id ∉ p.entries.map Entry.id → ∀ (hooks' : Hooks W H) bound,
    p.ringTimer hooks' bound id = some p
  settled : ∀ (o : Operation H) bound done, o.apply hooks bound p = some done →
    ∀ more, bound ≤ more → o.apply hooks more p = some done
  finishes : ∀ o : Operation H, Discreet hooks p.entries →
    (∀ name h, o.newcomer? = some (name, h) → hooks.Discreet h) →
      ∃ done, Finishes (fun bound => o.apply hooks bound p) done

/-- In every state that a pipeline can be in, its handlers are `Orderly`. -/
theorem orderly_of_history {past : List (Entry H)} (history : History hooks past p) :
    Orderly hooks past p := by
  have arranged := arranged_of_history history
  exact {
    arranged := arranged
    refused := fun o fault faulty hooks' bound =>
      Operation.apply_refused arranged.distinct faulty hooks' bound
    changed := fun o passes bound => exists_rearranges arranged.distinct passes hooks bound
    rings := fun e member bound => exists_rings arranged.numbered.alone member hooks bound
    silenced := fun o bound q applied e member leaves later path hooks' bound' =>
      ringTimer_of_gone (lacks_of_path path (arranged.lacks applied member leaves)).gone hooks'
        bound'
    gone := fun id gone hooks' bound => ringTimer_of_gone gone hooks' bound
    settled := fun o bound done applied more larger => by
      obtain ⟨result, planned⟩ := Operation.exists_planned hooks p o
      exact planned.given_of_le applied larger
    finishes := fun o discreet newcomer => by
      obtain ⟨result, q, -, finishes, -⟩ := Operation.apply_finishes hooks p o discreet newcomer
      exact ⟨(result, q), finishes⟩ }

/-- **The handlers of a pipeline are an ordered list with distinct names and numbers that are never
given twice**, however the pipeline came about; and a pipeline is built from a blueprint precisely
if the names of the prototypes are distinct. -/
theorem handlers_ordered (hooks : Hooks W H) :
    (∀ past p, History hooks past p → Orderly hooks past p) ∧
      ∀ (b : Blueprint H) channel (world : W) timers,
        Built hooks b fun bound => b.build hooks bound channel world timers :=
  ⟨fun _ _ => orderly_of_history, built_build hooks⟩

/-- Handlers that write down what they hear, and raise an event when they are added. -/
def announcing : Hooks (List (Nat × Signal)) Unit where
  role _ := .inbound
  signal s c h w :=
    match s with
    | .added => ⟨h, w ++ [(c.id, s)], [.raise (.user "hello")], .ok ()⟩
    | _ => ⟨h, w ++ [(c.id, s)], [], .ok ()⟩
  read item _ h w := .still h w (.ok (some item))
  write item _ h w := .still h w (.ok item)
  caught _ _ h w := .still h w ()
  fresh h := h

/-- A channel with some of them, and what was written down. -/
def announcers (entries : List (Entry Unit)) (nextId : Nat) (log : List (Nat × Signal)) :
    Pipeline (List (Nat × Signal)) Unit where
  channel := { here := ⟨.unspecified4, 0, 0⟩ }
  world := log
  entries := entries
  nextId := nextId

/-- Two of them, built with a bound that is just high enough. -/
def announcingPair : Pipeline (List (Nat × Signal)) Unit :=
  announcers [⟨0, "a", ()⟩, ⟨1, "b", ()⟩] 2 [(0, .added), (1, .added)]

/-- The pair after the first was replaced under its own name. -/
def announcingRenewed : Pipeline (List (Nat × Signal)) Unit :=
  announcers [⟨2, "a", ()⟩, ⟨1, "b", ()⟩] 3
    [(0, .added), (1, .added), (0, .removed), (2, .added), (1, .event (.user "hello"))]

/-- A pair is built, its first handler is replaced under its own name, the timer of the new handler
rings and that of the old one no longer does, a name that is taken is refused, and a blueprint with
a name twice is not built. -/
theorem handlers_ordered_announcers :
    (∃ past, History announcing past announcingRenewed ∧
      Orderly announcing past announcingRenewed) ∧
    (⟨[("a", ()), ("b", ())]⟩ : Blueprint Unit).build announcing 0 announcingPair.channel [] {} =
      none ∧
    (⟨[("a", ()), ("b", ())]⟩ : Blueprint Unit).build announcing 1 announcingPair.channel [] {} =
      some (.ok (), announcingPair) ∧
    (Operation.replace "a" "a" ()).apply announcing 1 announcingPair =
      some (.ok (), announcingRenewed) ∧
    announcingRenewed.ringTimer announcing 0 2 =
      some { announcingRenewed with world := announcingRenewed.world ++ [(2, .timer)] } ∧
    announcingRenewed.ringTimer announcing 0 0 = some announcingRenewed ∧
    (Operation.addLast "b" ()).apply announcing 0 announcingRenewed =
      some (.error (.state (.duplicateHandler "b")), announcingRenewed) ∧
    ¬ ∃ q, (⟨[("a", ()), ("a", ())]⟩ : Blueprint Unit).build announcing 1 announcingPair.channel []
      {} = some (.ok (), q) := by
  have cut : (⟨[("a", ()), ("b", ())]⟩ : Blueprint Unit).build announcing 0
      announcingPair.channel [] {} = none := rfl
  have built : (⟨[("a", ()), ("b", ())]⟩ : Blueprint Unit).build announcing 1
      announcingPair.channel [] {} = some (.ok (), announcingPair) := rfl
  have replaced : (Operation.replace "a" "a" ()).apply announcing 1 announcingPair =
      some (.ok (), announcingRenewed) := by rfl
  have rung : announcingRenewed.ringTimer announcing 0 2 =
      some { announcingRenewed with world := announcingRenewed.world ++ [(2, .timer)] } := rfl
  obtain ⟨orderly, blueprints⟩ := handlers_ordered announcing
  obtain ⟨⟨past, history⟩, -⟩ := (blueprints _ _ _ _).ok 1 _ built
  have renewed := orderly _ _ (history.operation replaced)
  refine ⟨⟨_, history.operation replaced, renewed⟩, cut, built, replaced, rung,
    renewed.gone 0 (by decide) announcing 0, renewed.refused _ _ rfl announcing 0, ?_⟩
  -- a name that stands twice is refused with the second prototype
  rw [(blueprints _ _ _ _).succeeds 1 (by decide)]
  decide

end Pipeline

end PeerMessaging
