import PeerMessaging.Proofs.Channel.Alarms
import PeerMessaging.Proofs.Channel.Delivery
import PeerMessaging.Proofs.Channel.Identity
import PeerMessaging.Proofs.Channel.Stages

/-!
# Removing a handler

The `removed` hook of a handler runs while the handler still has its place, and the effects of the
hook are performed when its entry is gone. By then the entries behind it have moved up by one, and
an event of the hook still starts behind the place that the handler had. So the event reaches the
handlers that stood two places behind or further, each of them once and in order, and not the
handler directly behind. A failure of the hook is told to no handler.

Both follow from the calls of a walk: a signal is put to the handlers of its places one after
another, and a failure that a handler is told was met on the same walk.
-/

namespace PeerMessaging.Pipeline

variable {W H : Type} {hooks : Hooks W H} {p q r : Pipeline W H}

/-! ## Who hears a signal -/

/-- The numbers of the handlers that were asked to hear a signal, in the order of the calls. -/
def hearers (s : Signal) (calls : List Call) : List Nat :=
  (calls.filter fun c => c.question = .hear s).map Call.id

/-- A signal came to some handlers in their order. It met each of them as its own hooks have left it
by then, and was heard once by each that takes part in it, and by nobody else. -/
def Reaches (hooks : Hooks W H) (s : Signal) (l : List (Entry H)) (calls : List Call) : Prop :=
  ∃ met, List.Forall₂ (Entry.Kin hooks) l met ∧
    hearers s calls = (met.filter fun e => hooks.joins (.hear s) e.handler).map Entry.id

/-- A handler is at a place, perhaps in a later state. -/
def StandsAt (hooks : Hooks W H) (p : Pipeline W H) (place : Nat) (e : Entry H) : Prop :=
  ∃ e', p.entries[place]? = some e' ∧ e.Kin hooks e'

/-- A handler keeps its place while the pipeline is steady. -/
theorem StandsAt.later {asked : List Deferred} (steady : Steady hooks asked p q) {place : Nat}
    {e : Entry H} (stands : StandsAt hooks p place e) : StandsAt hooks q place e := by
  obtain ⟨e', there, kin⟩ := stands
  obtain ⟨e'', there', kin'⟩ := exists_getElem?_of_forall₂ steady.entries there
  exact ⟨e'', there', kin.trans kin'⟩

/-- From one place on stand the handlers that are left when as many are dropped. -/
theorem standsAt_placesFrom {l : List (Entry H)} (kin : List.Forall₂ (Entry.Kin hooks) l p.entries)
    (start : Nat) : List.Forall₂ (StandsAt hooks p) (p.placesFrom start) (l.drop start) := by
  rw [List.forall₂_iff_get]
  refine ⟨?_, fun i _ within => ?_⟩
  · rw [placesFrom, List.length_range', List.length_drop, kin.length_eq]
  · rw [List.length_drop] at within
    obtain ⟨e, there, same⟩ :=
      exists_getElem?_of_forall₂ kin (List.getElem?_eq_getElem (Nat.add_lt_of_lt_sub' within))
    refine ⟨e, ?_, ?_⟩
    · simpa [placesFrom] using there
    · simpa using same

/-- A call about a signal adds its handler to the hearers. -/
theorem hearers_cons_of_hear {s : Signal} {c : Call} (asked : c.question = .hear s)
    (calls : List Call) : hearers s (c :: calls) = c.id :: hearers s calls := by
  rw [hearers, List.filter_cons, if_pos (decide_eq_true asked)]
  rfl

/-- Calls that tell of a failure add no hearers. -/
theorem hearers_of_told {s : Signal} {f : Failure} {places : List Nat} {told : List Call}
    (alarm : Told hooks f places told p q) (calls : List Call) :
    hearers s (told ++ calls) = hearers s calls := by
  have none : told.filter (fun c => c.question = .hear s) = [] := by
    refine List.filter_eq_nil_iff.mpr fun c member asked => ?_
    cases (alarm.questions c member).symm.trans (of_decide_eq_true asked)
  rw [hearers, List.filter_append, none]
  rfl

/-- Whoever is asked takes part in what it is asked. -/
theorem Asks.joins {place : Nat} {question : Question} {answer : Answer} {c : Call} {e : Entry H}
    (asks : Asks hooks place question answer c p q) (stands : p.entries[place]? = some e) :
    hooks.joins question e.handler = true := by
  obtain ⟨made, rfl, rfl, -⟩ := asks
  cases made with
  | intro stands' joins =>
    cases stands'.symm.trans stands
    exact joins

/-- The walk of a signal meets the handlers of its places. -/
theorem Heard.reaches {s : Signal} {places : List Nat} {calls : List Call}
    (heard : Heard hooks s places calls p q) {l : List (Entry H)}
    (stand : List.Forall₂ (StandsAt hooks p) places l) : Reaches hooks s l calls := by
  -- a call can change the state of a handler but not whether it joins, so `l` stands for all states
  induction heard generalizing l with
  | nil =>
    cases stand
    exact ⟨[], .nil, rfl⟩
  | aside stands aside _ ih =>
    obtain _ | ⟨⟨e', there, kin⟩, rest⟩ := stand
    obtain rfl := Option.some.inj (there.symm.trans stands)
    obtain ⟨met, kins, heard⟩ := ih rest
    refine ⟨e' :: met, .cons kin kins, ?_⟩
    rw [List.filter_cons, if_neg (ne_true_of_eq_false aside), heard]
  | calm head _ ih =>
    obtain _ | ⟨⟨e', there, kin⟩, rest⟩ := stand
    obtain ⟨met, kins, heard⟩ := ih (rest.imp fun _ _ => StandsAt.later head.steady)
    refine ⟨e' :: met, .cons kin kins, ?_⟩
    rw [hearers_cons_of_hear head.question, List.filter_cons, if_pos (head.joins there),
      List.map_cons, head.id_eq there, heard]
  | alarmed head alarm _ ih =>
    obtain _ | ⟨⟨e', there, kin⟩, rest⟩ := stand
    obtain ⟨met, kins, heard⟩ :=
      ih (rest.imp fun _ _ => StandsAt.later (head.steady.trans alarm.steady))
    refine ⟨e' :: met, .cons kin kins, ?_⟩
    rw [hearers_cons_of_hear head.question, hearers_of_told alarm, List.filter_cons,
      if_pos (head.joins there), List.map_cons, head.id_eq there, heard]

/-! ## Who learns of a failure -/

/-- Some call of a walk ended with a failure. -/
def Met (f : Failure) (calls : List Call) : Prop := ∃ c ∈ calls, c.answer = .fail f

/-- The alarm of a call tells the failure that the call ended with. -/
theorem answer_of_alarm {c : Call} {count place : Nat} {f : Failure}
    (alarmed : (place, f) ∈ c.alarm count) : c.answer = .fail f := by
  rw [Call.alarm] at alarmed
  split at alarmed
  · next failed =>
    obtain ⟨_, -, same⟩ := List.mem_map.mp alarmed
    cases same
    exact failed
  · cases alarmed

/-- Where failures are told as they should be, whoever learns of one learns of one that was met. -/
theorem Routed.met {count : Nat} {calls : List Call} (routed : Routed count calls) {c : Call}
    {f : Failure} (member : c ∈ calls) (learns : c.question = .learn f) : Met f calls := by
  have lesson : (c.place, f) ∈ lessons calls :=
    List.mem_filterMap.mpr ⟨c, member, by rw [Call.lesson?, learns]⟩
  rw [routed.told] at lesson
  obtain ⟨c', there, alarmed⟩ := List.mem_flatMap.mp lesson
  exact ⟨c', there, answer_of_alarm alarmed⟩

/-- Whoever learns of a failure in a stage learns of one that was met in the stage, and nobody does
when a handler goes. -/
def Stage.Learned (stage : Stage H) : Prop :=
  ∀ c ∈ stage.calls, ∀ f, c.question = .learn f →
    (∀ place, stage.errand ≠ .leave place) ∧ Met f stage.calls

/-- In a stage, handlers learn only of failures that were met in it. -/
theorem Performs.learned {errand : Errand H} {calls : List Call} {ending : Ending}
    (performs : Performs hooks errand calls ending p q) (cause : Option Deferred) :
    Stage.Learned ⟨cause, errand, calls, ending⟩ := by
  intro c member f learns
  cases performs with
  | read walk => exact ⟨nofun, walk.routed.met member learns⟩
  | sent walk => exact ⟨nofun, walk.routed.met member learns⟩
  | unsent walk _ => exact ⟨nofun, walk.routed.met member learns⟩
  | spread walk => exact ⟨nofun, walk.routed.met member learns⟩
  | switch walk => exact ⟨nofun, walk.routed.met member learns⟩
  | ring walk => exact ⟨nofun, walk.routed.met member learns⟩
  | enter walk => exact ⟨nofun, walk.routed.met member learns⟩
  | leave asks =>
    obtain rfl := List.mem_singleton.mp member
    cases asks.question.symm.trans learns

/-- In every stage of a journal, handlers learn only of failures that were met in it. -/
theorem Accounts.learned {errands : List (Errand H)} {journal : List (Stage H)}
    (accounts : Accounts hooks errands journal p q) : ∀ stage ∈ journal, stage.Learned := by
  intro stage member
  obtain ⟨front, back, split⟩ := List.append_of_mem member
  obtain ⟨⟨m, n, -, performs⟩, -⟩ := accounts.underway.chronicle front stage back split
  exact performs.learned stage.cause

/-! ## What is done first -/

/-- The stage in which something that was put off is done, by handlers that are still the given
ones. -/
structure Follows (hooks : Hooks W H) (l : Roster H) (d : Deferred) (stage : Stage H) : Prop where
  cause : stage.cause = some d
  performs : ∃ m n : Pipeline W H, l.Kin hooks m.roster ∧
    Performs hooks d.errand stage.calls stage.ending m n

/-- What follows for a roster follows for one that is kin. -/
theorem Follows.of_kin {l m : Roster H} {d : Deferred} {stage : Stage H} (kin : l.Kin hooks m)
    (follows : Follows hooks m d stage) : Follows hooks l d stage := by
  obtain ⟨m', n, kin', performs⟩ := follows.performs
  exact ⟨follows.cause, m', n, kin.trans kin', performs⟩

theorem causes_of_follows {l : Roster H} {asked : List Deferred} {own : List (Stage H)}
    (follow : List.Forall₂ (Follows hooks l) asked own) :
    own.map Stage.cause = asked.map some := by
  induction follow with
  | nil => rfl
  | cons head _ ih => rw [List.map_cons, List.map_cons, head.cause, ih]

/-- Each stage that follows performs one of the effects. -/
theorem exists_follows {l : Roster H} {asked : List Deferred} {own : List (Stage H)}
    (follow : List.Forall₂ (Follows hooks l) asked own) {stage : Stage H} (member : stage ∈ own) :
    ∃ d ∈ asked, Follows hooks l d stage := by
  induction follow with
  | nil => cases member
  | cons head _ ih =>
    obtain rfl | member := List.mem_cons.mp member
    · exact ⟨_, List.mem_cons_self, head⟩
    · obtain ⟨d, there, follows⟩ := ih member
      exact ⟨d, List.mem_cons_of_mem _ there, follows⟩

/-- An event that follows comes to those of the handlers that stand behind its origin. -/
theorem Follows.reaches {l : Roster H} {origin : Nat} {event : ChannelEvent} {stage : Stage H}
    (follows : Follows hooks l (.event origin event) stage) :
    Reaches hooks (.event event) (l.entries.drop (origin + 1)) stage.calls := by
  obtain ⟨-, m, n, kin, performs⟩ := follows
  obtain ⟨cause, errand, calls, ending⟩ := stage
  cases performs with
  | spread walk => exact walk.reaches (standsAt_placesFrom kin.entries (origin + 1))

/-- What waits at the front of the queue is done in the first stages. -/
theorem Drains.front {stages : List (Stage H)} (drains : Drains hooks stages p q)
    {front back : List Deferred} (queue : p.queue = front ++ back) :
    ∃ own others, stages = own ++ others ∧ List.Forall₂ (Follows hooks p.roster) front own := by
  induction drains generalizing front back with
  | @idle p empty =>
    obtain ⟨rfl, -⟩ := List.append_eq_nil_iff.mp (queue.symm.trans empty)
    exact ⟨[], [], rfl, .nil⟩
  | @next p q _ d waiting calls ending stages first performs later ih =>
    cases front with
    | nil => exact ⟨[], _, rfl, .nil⟩
    | cons d' front =>
      obtain ⟨rfl, rfl⟩ := List.cons.inj (first.symm.trans queue)
      have kin := performs.roster
      rw [serve_deferred] at kin
      have queue' : q.queue = front ++ (back ++ calls.flatMap Call.asked) :=
        performs.queue.trans (List.append_assoc ..)
      obtain ⟨own, others, rfl, follow⟩ := ih queue'
      have here : Follows hooks p.roster d ⟨some d, d.errand, calls, ending⟩ :=
        ⟨rfl, { p with queue := front ++ back }, q, .refl hooks _, performs⟩
      exact ⟨_ :: own, others, rfl, .cons here (follow.imp fun _ _ => Follows.of_kin kin)⟩

end PeerMessaging.Pipeline

namespace PeerMessaging.Operation

open Pipeline

variable {W H : Type} {hooks : Hooks W H} {p q : Pipeline W H} {o : Operation H}

/-! ## The handler that goes -/

/-- At an anchor stands an entry of that name. -/
theorem stands_of_anchor {name : String} {place : Nat} (anchored : p.anchor name = .ok place) :
    ∃ e, p.entries[place]? = some e ∧ e.name = name := by
  rw [anchor] at anchored
  cases found : p.place? name with
  | none =>
    rw [found] at anchored
    cases anchored
  | some place' =>
    rw [found] at anchored
    cases anchored
    obtain ⟨within, same, -⟩ := List.findIdx?_eq_some_iff_getElem.mp found
    exact ⟨_, List.getElem?_eq_getElem within, beq_iff_eq.mp same⟩

/-- An operation that takes a handler out sets out on this first. -/
theorem errands_of_leaver {name : String} {bound : Nat} (leaves : o.leaver? = some name)
    (applied : o.apply hooks bound p = some (.ok (), q)) :
    ∃ place e rest, p.entries[place]? = some e ∧ e.name = name ∧
      o.errands p = .leave place :: rest := by
  cases o with
  | replace old new h =>
    cases leaves
    obtain ⟨place, passed, -⟩ | ⟨f, -, refused, -⟩ := changed_after applied
    · have anchored : p.anchor name = .ok place := by
        split at passed
        · exact passed
        · exact (anchorForNew_eq_ok.mp passed).1
      obtain ⟨e, stands, named⟩ := stands_of_anchor anchored
      refine ⟨place, e, [.enter place new h], stands, named, ?_⟩
      rw [errands, passed]
      rfl
    · cases refused
  | remove old =>
    cases leaves
    obtain ⟨place, passed, -⟩ | ⟨f, -, refused, -⟩ := changed_after applied
    · obtain ⟨e, stands, named⟩ := stands_of_anchor passed
      refine ⟨place, e, [], stands, named, ?_⟩
      rw [errands, passed]
      rfl
    · cases refused
  | _ => cases leaves

/-- The effects that the handler at `place` left in its `removed` hook are performed in the stages
`own`, one in each and in the order in which they were asked for. An event reaches all handlers that
stood two places behind or further, and not the one directly behind. -/
structure RemovalEffects (hooks : Hooks W H) (place : Nat) (p : Pipeline W H)
    (asked : List Deferred) (own : List (Stage H)) : Prop where
  causes : own.map Stage.cause = asked.map some
  events : ∀ stage ∈ own, ∀ origin event, stage.cause = some (.event origin event) →
    origin = place ∧ Reaches hooks (.event event) (p.entries.drop (place + 2)) stage.calls ∧
      ∀ next, p.entries[place + 1]? = some next → next.id ∉ hearers (.event event) stage.calls

/-- How an operation removes a handler: its `removed` hook runs once, in the first stage, and the
effects of this hook are performed next. A failure that a handler is told in some stage was met in
the same stage, which is not the one of the `removed` hook. -/
structure Departs (hooks : Hooks W H) (o : Operation H) (journal : List (Stage H))
    (p q : Pipeline W H) : Prop where
  accounts : Accounts hooks (o.errands p) journal p q
  removal : ∃ place e c own others, p.entries[place]? = some e ∧ o.leaver? = some e.name ∧
    journal = ⟨none, .leave place, [c], .over⟩ :: (own ++ others) ∧ c.id = e.id ∧
    c.question = .hear .removed ∧ RemovalEffects hooks place p c.asked own
  learned : ∀ stage ∈ journal, stage.Learned

/-- Those behind a place are one place further to the front when the place is gone. -/
theorem drop_eraseIdx_succ {α : Type} (l : List α) (place : Nat) :
    (l.eraseIdx place).drop (place + 1) = l.drop (place + 2) := by
  induction l generalizing place with
  | nil => simp
  | cons a l ih =>
    cases place with
    | zero => rw [List.eraseIdx_cons_zero, List.drop_succ_cons]
    | succ place => exact ih place

/-- A signal that reaches the handlers behind a place is not heard at the place. -/
theorem not_mem_hearers {s : Signal} {calls : List Call} {place : Nat} {next : Entry H}
    (alone : (p.entries.map Entry.id).Nodup) (stands : p.entries[place]? = some next)
    (reaches : Reaches hooks s (p.entries.drop (place + 1)) calls) :
    next.id ∉ hearers s calls := by
  obtain ⟨met, kin, heard⟩ := reaches
  obtain ⟨within, rfl⟩ := List.getElem?_eq_some_iff.mp stands
  have behind := alone.sublist ((List.drop_sublist place p.entries).map Entry.id)
  rw [List.drop_eq_getElem_cons within, List.map_cons, List.nodup_cons] at behind
  rw [heard]
  intro member
  have member' := (List.filter_sublist.map Entry.id).subset member
  rw [kin_map Entry.Kin.id kin] at member'
  exact behind.1 member'

/-- **The effects of a `removed` hook skip the handler directly behind**: an event that it raised
reaches, once and in order, the handlers that stood two places behind or further, and the failure
of the hook is told to no handler. -/
theorem apply_departs {past : List (Entry H)} {name : String} {bound : Nat}
    (history : History hooks past p) (leaves : o.leaver? = some name)
    (applied : o.apply hooks bound p = some (.ok (), q)) :
    ∃ journal, Departs hooks o journal p q := by
  obtain ⟨place, e, rest, stands, named, errands⟩ := errands_of_leaver leaves applied
  obtain ⟨journal, accounts⟩ := apply_accounts applied
  refine ⟨journal, accounts, ?_, accounts.learned⟩
  rw [errands] at accounts
  cases accounts with
  | @next _ m _ _ _ _ calls ending stages later performs drains _ =>
    have kin := performs.roster
    have queue := performs.queue
    cases performs with
    | @leave _ m' _ answer c asks =>
      rw [history.idle, List.flatMap_singleton] at queue
      obtain ⟨own, others, rfl, follow⟩ := drains.front (queue.trans (List.append_nil _).symm)
      refine ⟨place, e, c, own, others ++ later, stands, named ▸ leaves, ?_, asks.id_eq stands,
        asks.question, causes_of_follows follow, fun stage member origin event cause => ?_⟩
      · rw [List.append_assoc]
      · obtain ⟨d, asked, follows⟩ := exists_follows follow member
        cases follows.cause.symm.trans cause
        -- only the handler itself has asked for this
        obtain ⟨effect, -, put⟩ := List.mem_flatMap.mp asked
        obtain rfl : origin = place := by
          cases effect with
          | write item => cases List.mem_singleton.mp put
          | raise event' =>
            cases List.mem_singleton.mp put
            exact asks.place
          | _ => cases put
        have reaches := (follows.of_kin kin).reaches
        rw [roster, Roster.serve, drop_eraseIdx_succ] at reaches
        exact ⟨rfl, reaches, fun next behind =>
          not_mem_hearers (arranged_of_history history).numbered.alone behind reaches⟩

/-- Handlers that read, write down what they are asked, and raise an event and fail when they go. -/
def parting : Hooks (List (Nat × Question)) Unit where
  role _ := .inbound
  signal s c h w :=
    match s with
    | .removed =>
      ⟨h, w ++ [(c.id, .hear .removed)], [.raise (.user "bye")],
        .error (.state (.reported "broken"))⟩
    | s => ⟨h, w ++ [(c.id, .hear s)], [], .ok ()⟩
  read item _ h w := .still h w (.ok (some item))
  write item _ h w := .still h w (.ok item)
  caught f c h w := ⟨h, w ++ [(c.id, .learn f)], [], ()⟩
  fresh h := h

/-- A channel with such handlers. -/
def parters (entries : List (Entry Unit)) (log : List (Nat × Question)) :
    Pipeline (List (Nat × Question)) Unit where
  channel := { here := ⟨.unspecified4, 0, 0⟩ }
  world := log
  entries := entries
  nextId := entries.length

/-- Three of them. -/
def trio : Pipeline (List (Nat × Question)) Unit :=
  parters [⟨0, "a", ()⟩, ⟨1, "b", ()⟩, ⟨2, "c", ()⟩] []

/-- The first of the three is taken out of a channel that came about by adding them. -/
theorem apply_departs_trio :
    History parting [⟨0, "a", ()⟩, ⟨1, "b", ()⟩, ⟨2, "c", ()⟩] trio ∧
      (remove "a" : Operation Unit).leaver? = some "a" ∧
      ∃ q journal, (remove "a").apply parting 1 trio = some (.ok (), q) ∧
        Departs parting (remove "a") journal trio q := by
  have first : (addLast "a" ()).apply parting 0 (parters [] []) =
      some (.ok (), parters [⟨0, "a", ()⟩] [(0, .hear .added)]) := rfl
  have second : (addLast "b" ()).apply parting 0 (parters [⟨0, "a", ()⟩] [(0, .hear .added)]) =
      some (.ok (), parters [⟨0, "a", ()⟩, ⟨1, "b", ()⟩]
        [(0, .hear .added), (1, .hear .added)]) := rfl
  have third : (addLast "c" ()).apply parting 0 (parters [⟨0, "a", ()⟩, ⟨1, "b", ()⟩] []) =
      some (.ok (), parters [⟨0, "a", ()⟩, ⟨1, "b", ()⟩, ⟨2, "c", ()⟩]
        [(2, .hear .added)]) := rfl
  have empty : History parting [] (parters [] []) := .new rfl rfl rfl
  -- what was written down so far is taken away in between
  have pair : History parting [⟨0, "a", ()⟩, ⟨1, "b", ()⟩]
      (parters [⟨0, "a", ()⟩, ⟨1, "b", ()⟩] []) :=
    ((empty.operation first).operation second).outside rfl rfl rfl
  have history : History parting [⟨0, "a", ()⟩, ⟨1, "b", ()⟩, ⟨2, "c", ()⟩] trio :=
    (pair.operation third).outside rfl rfl rfl
  obtain ⟨q, removed⟩ : ∃ q, (remove "a").apply parting 1 trio = some (.ok (), q) := ⟨_, rfl⟩
  obtain ⟨journal, departs⟩ := apply_departs history rfl removed
  exact ⟨history, rfl, q, journal, removed, departs⟩

/-- **The handler directly behind hears nothing**: it reads, it stood directly behind the handler
that raised an event when it went, and the event comes to the one further behind alone. Nobody is
told of the failure. -/
theorem unheard_behind :
    (parting.role ()).reads = true ∧ trio.entries[1]? = some ⟨1, "b", ()⟩ ∧
      ∃ q, (remove "a").apply parting 1 trio = some (.ok (), q) ∧
        q.world = [(0, .hear .removed), (2, .hear (.event (.user "bye")))] :=
  ⟨rfl, rfl, _, rfl, rfl⟩

end PeerMessaging.Operation
