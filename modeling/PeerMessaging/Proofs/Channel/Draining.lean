import Mathlib.Logic.Hydra
import PeerMessaging.Channel.Standard
import PeerMessaging.Proofs.Channel.Delivery
import PeerMessaging.Proofs.Channel.Identity
import PeerMessaging.Proofs.Channel.Stages

/-!
# What is put off comes to an end

What was put off may put off more, and one event may put off many things, so the length of the queue
is no measure of what is still to be done. But an event is only for the handlers behind the one who
raised it, and what they raise comes from further behind. If handlers put nothing off while they
write and while they learn of failures, then a write adds nothing to the queue, and an event adds
only things that have less far to go. So the multiset of how far the things in the queue go becomes
smaller with each thing that is done, in an order in which it cannot do so forever.
-/

namespace PeerMessaging

variable {W H : Type}

/-- Nothing that a handler asks for is put off. -/
def Reaction.Quiet {α : Type} (r : Reaction W H α) : Prop :=
  ∀ place, r.effects.flatMap (Effect.deferred place) = []

/-- A handler never puts anything off while it writes or learns of a failure, whatever its own hooks
make of it. -/
def Hooks.Discreet (hooks : Hooks W H) (h : H) : Prop :=
  ∀ h', Relation.ReflTransGen hooks.Reacts h h' → ∀ context world,
    (∀ item, (hooks.write item context h' world).Quiet) ∧
      ∀ f, (hooks.caught f context h' world).Quiet

/-- A discreet handler stays discreet in whatever state its hooks leave it. -/
theorem Hooks.Discreet.later {hooks : Hooks W H} {h h' : H} (discreet : hooks.Discreet h)
    (reacts : Relation.ReflTransGen hooks.Reacts h h') : hooks.Discreet h' :=
  fun h'' further => discreet h'' (reacts.trans further)

/-- All standard handlers are discreet. -/
theorem StandardHandler.discreet {U : Type} (services : Services U) (h : StandardHandler U) :
    (hooks services).Discreet h := by
  refine fun h' _ c w => ⟨fun item place => ?_, fun f place => ?_⟩
  · show (write services item c h' w).effects.flatMap _ = []
    unfold write
    split
    · split <;> rfl
    · rfl
    · rfl
  · show (caught services f c h' w).effects.flatMap _ = []
    unfold caught
    split
    · dsimp only
      split <;> rfl
    · rfl
    · rfl

/-- How far something that was put off goes, among so many handlers. -/
def Deferred.reach (count : Nat) : Deferred → Nat
  | .write _ => 0
  | .event origin _ => count - origin

namespace Pipeline

variable {hooks : Hooks W H} {p q r : Pipeline W H}

/-! ## One thing that was put off -/

/-- All handlers are discreet. -/
def Discreet (hooks : Hooks W H) (l : List (Entry H)) : Prop :=
  ∀ e ∈ l, hooks.Discreet e.handler

/-- Entries that are kin to discreet ones are discreet. -/
theorem Discreet.of_kin {l m : List (Entry H)} (discreet : Discreet hooks l)
    (kin : List.Forall₂ (Entry.Kin hooks) l m) : Discreet hooks m := by
  intro e member
  obtain ⟨e', there, same⟩ := exists_kin kin member
  exact (discreet e' there).later same.handler

/-- A discreet handler puts nothing off while it writes. -/
theorem IsOf.asked_of_turn {l : List (Entry H)} {c : Call} {item : Item} (isOf : IsOf hooks l c)
    (discreet : Discreet hooks l) (asked : c.question = .turn item) : c.asked = [] := by
  obtain ⟨e, e', context, world, stands, kin, -, effects, -⟩ := isOf
  rw [Call.asked, effects, asked]
  exact (discreet e (List.mem_of_getElem? stands) e'.handler kin.handler context world).1 item _

/-- A discreet handler puts nothing off while it learns of a failure. -/
theorem IsOf.asked_of_learn {l : List (Entry H)} {c : Call} {f : Failure} (isOf : IsOf hooks l c)
    (discreet : Discreet hooks l) (asked : c.question = .learn f) : c.asked = [] := by
  obtain ⟨e, e', context, world, stands, kin, -, effects, -⟩ := isOf
  rw [Call.asked, effects, asked]
  exact (discreet e (List.mem_of_getElem? stands) e'.handler kin.handler context world).2 f _

theorem IsOf.place_lt {l : List (Entry H)} {c : Call} (isOf : IsOf hooks l c) :
    c.place < l.length := by
  obtain ⟨e, -, -, -, stands, -⟩ := isOf
  exact (List.getElem?_eq_some_iff.mp stands).1

/-- The walk of a signal calls the handlers of its places, apart from those who learn of
failures. -/
theorem Heard.places {s : Signal} {places : List Nat} {calls : List Call}
    (heard : Heard hooks s places calls p q) :
    ∀ c ∈ calls, c.question = .hear s → c.place ∈ places := by
  induction heard with
  | nil => exact fun _ member => absurd member List.not_mem_nil
  | aside _ _ _ ih => exact fun c member asked => List.mem_cons_of_mem _ (ih c member asked)
  | calm head _ ih =>
    refine List.forall_mem_cons.mpr ⟨fun _ => head.place ▸ List.mem_cons_self, ?_⟩
    exact fun c member asked => List.mem_cons_of_mem _ (ih c member asked)
  | alarmed head alarm _ ih =>
    refine List.forall_mem_cons.mpr ⟨fun _ => head.place ▸ List.mem_cons_self, ?_⟩
    refine List.forall_mem_append.mpr ⟨fun c member asked => ?_, fun c member asked => ?_⟩
    · cases (alarm.questions c member).symm.trans asked
    · exact List.mem_cons_of_mem _ (ih c member asked)

/-- Doing something that was put off puts nothing off if it is a write. If it is an event, only
handlers behind its origin put anything off. -/
theorem Performs.narrows {d : Deferred} {calls : List Call} {ending : Ending}
    (performs : Performs hooks d.errand calls ending p q) (discreet : Discreet hooks p.entries) :
    ∀ c ∈ calls, c.asked ≠ [] →
      c.place < p.entries.length ∧ ∃ origin event, d = .event origin event ∧ origin < c.place := by
  intro c member asks
  cases d with
  | write item =>
    have quiet {item' : Item} {places : List Nat} {m : Pipeline W H}
        (walk : Carried hooks .outward places item' calls ending p m) : c.asked = [] := by
      obtain ⟨_, asked⟩ | ⟨f, asked⟩ := walk.questions c member
      · exact (walk.isOf c member).asked_of_turn discreet asked
      · exact (walk.isOf c member).asked_of_learn discreet asked
    cases performs with
    | sent walk => exact absurd (quiet walk) asks
    | unsent walk _ => exact absurd (quiet walk) asks
  | event origin event =>
    cases performs with
    | spread walk =>
      obtain asked | ⟨f, asked⟩ := walk.questions c member
      · refine ⟨(walk.isOf c member).place_lt, origin, event, rfl, ?_⟩
        exact (List.mem_range'_1.mp (walk.places c member asked)).1
      · exact absurd ((walk.isOf c member).asked_of_learn discreet asked) asks

/-- What a call asks for reaches no further than the handlers behind its place. -/
theorem reach_of_asked {c : Call} {d : Deferred} (asked : d ∈ c.asked) (count : Nat) :
    d.reach count ≤ count - c.place := by
  obtain ⟨effect, -, put⟩ := List.mem_flatMap.mp asked
  cases effect with
  | write item =>
    cases List.mem_singleton.mp put
    exact Nat.zero_le _
  | raise event =>
    cases List.mem_singleton.mp put
    exact Nat.le_refl _
  | _ => cases put

/-- Whatever is put off while something is done that was put off goes less far. -/
theorem Performs.reach_lt {d : Deferred} {calls : List Call} {ending : Ending}
    (performs : Performs hooks d.errand calls ending p q) (discreet : Discreet hooks p.entries) :
    ∀ d' ∈ calls.flatMap Call.asked, d'.reach p.entries.length < d.reach p.entries.length := by
  intro d' asked
  obtain ⟨c, member, asked'⟩ := List.mem_flatMap.mp asked
  obtain ⟨within, origin, event, rfl, behind⟩ :=
    performs.narrows discreet c member (List.ne_nil_of_mem asked')
  refine Nat.lt_of_le_of_lt (reach_of_asked asked' _) ?_
  show p.entries.length - c.place < p.entries.length - origin
  omega

/-! ## Working off the queue -/

/-- How far the things go that wait in the queue. -/
def load (p : Pipeline W H) : Multiset Nat :=
  Multiset.ofList (p.queue.map (Deferred.reach p.entries.length))

/-- What is done from the queue keeps the entries up to kinship. -/
theorem perform_kin (hooks : Hooks W H) (d : Deferred) (p : Pipeline W H) :
    List.Forall₂ (Entry.Kin hooks) p.entries (perform hooks d p).entries := by
  obtain ⟨calls, ending, performs⟩ := perform_performs hooks d p
  have kin := performs.roster
  rw [serve_deferred] at kin
  exact kin.entries

/-- What waits goes less far when the first thing is done: what was put off instead of it goes less
far than it did. -/
theorem load_perform {d : Deferred} {waiting : List Deferred} (discreet : Discreet hooks p.entries)
    (queue : p.queue = d :: waiting) :
    Relation.CutExpand (· < ·) (perform hooks d { p with queue := waiting }).load p.load := by
  obtain ⟨calls, ending, performs⟩ := perform_performs hooks d { p with queue := waiting }
  have same : (perform hooks d { p with queue := waiting }).entries.length = p.entries.length :=
    (perform_kin hooks d { p with queue := waiting }).length_eq.symm
  -- what still waits is on both sides
  rw [load, load, performs.queue, same, queue, List.map_append, List.map_cons, ← Multiset.coe_add,
    ← Multiset.cons_coe, ← Multiset.singleton_add, add_comm {_}, Relation.cutExpand_add_left]
  refine Relation.cutExpand_singleton fun reach member => ?_
  obtain ⟨d', asked, rfl⟩ := List.mem_map.mp (Multiset.mem_coe.mp member)
  exact performs.reach_lt discreet d' asked

/-- Something with a bound gives the same result from some bound on. -/
def Finishes {α : Type} (f : Nat → Option α) (a : α) : Prop :=
  ∃ least, ∀ bound, least ≤ bound → f bound = some a

/-- **The queue of discreet handlers is worked off.** -/
theorem exists_settled (discreet : Discreet hooks p.entries) :
    ∃ q, Finishes (fun bound => p.settle hooks bound) q := by
  -- the order in which one thing makes room for any number of things that go less far
  have order : WellFounded (InvImage (Relation.CutExpand (· < ·)) (load (W := W) (H := H))) :=
    InvImage.wf load (WellFounded.cutExpand Nat.lt_wfRel.wf)
  induction p using order.induction with
  | _ p ih =>
    cases queue : p.queue with
    | nil => exact ⟨p, 0, fun bound _ => settle_idle queue bound⟩
    | cons d waiting =>
      have later : Discreet hooks (perform hooks d { p with queue := waiting }).entries :=
        discreet.of_kin (perform_kin hooks d { p with queue := waiting })
      obtain ⟨q, least, settled⟩ := ih _ (load_perform discreet queue) later
      refine ⟨q, least + 1, fun bound enough => ?_⟩
      obtain ⟨bound, rfl⟩ := Nat.exists_eq_add_of_le' enough
      exact (settle_next queue _).trans (settled _ (Nat.le_add_left _ _))

/-! ## Errands -/

/-- Handlers stay discreet if one that is put in is. -/
theorem Discreet.serve {l : Roster H} {errand : Errand H} (discreet : Discreet hooks l.entries)
    (newcomer : ∀ place name h, errand = .enter place name h → hooks.Discreet h) :
    Discreet hooks (l.serve errand).entries := by
  cases errand with
  | enter place name h =>
    intro e member
    obtain rfl | member := List.eq_or_mem_of_mem_insertIdx member
    · exact newcomer place name h rfl
    · exact discreet e member
  | leave place => exact fun e member => discreet e (List.mem_of_mem_eraseIdx member)
  | _ => exact discreet

/-- An errand keeps the handlers discreet if those that enter are discreet. -/
theorem Performs.discreet {errand : Errand H} {calls : List Call} {ending : Ending}
    (performs : Performs hooks errand calls ending p q) (discreet : Discreet hooks p.entries)
    (newcomer : ∀ place name h, errand = .enter place name h → hooks.Discreet h) :
    Discreet hooks q.entries :=
  Discreet.of_kin (Discreet.serve (l := p.roster) discreet newcomer) performs.roster.entries

/-- In a stage that was put off nothing more is put off unless it was an event, and then only by
handlers behind the one who raised it. -/
def Stage.Narrows (stage : Stage H) : Prop :=
  ∀ d, stage.cause = some d → ∀ c ∈ stage.calls, c.asked ≠ [] →
    ∃ origin event, d = .event origin event ∧ origin < c.place

/-- Among discreet handlers, each stage of a drain puts off only what reaches less far. -/
theorem Drains.narrows {stages : List (Stage H)} (drains : Drains hooks stages p q)
    (discreet : Discreet hooks p.entries) : ∀ stage ∈ stages, stage.Narrows := by
  induction drains with
  | idle _ => exact fun _ member => absurd member List.not_mem_nil
  | @next p q r d _ _ _ _ _ performs _ ih =>
    refine List.forall_mem_cons.mpr ⟨fun d' same c member asks => ?_, ih ?_⟩
    · cases same
      exact (performs.narrows discreet c member asks).2
    · refine performs.discreet discreet fun place name h same => ?_
      cases d <;> cases same

/-- Among discreet handlers, each stage of a journal puts off only what reaches less far. -/
theorem Accounts.narrows {errands : List (Errand H)} {journal : List (Stage H)}
    (accounts : Accounts hooks errands journal p q) (discreet : Discreet hooks p.entries)
    (newcomer : ∀ place name h, .enter place name h ∈ errands → hooks.Discreet h) :
    ∀ stage ∈ journal, stage.Narrows := by
  induction accounts with
  | done => exact fun _ member => absurd member List.not_mem_nil
  | next performs drains _ ih =>
    have entered := performs.discreet discreet fun place name h same =>
      newcomer place name h (same ▸ List.mem_cons_self)
    refine List.forall_mem_cons.mpr ⟨fun _ same => (nomatch same), ?_⟩
    refine List.forall_mem_append.mpr ⟨drains.narrows entered, ?_⟩
    refine ih (entered.of_kin drains.roster.entries) fun place name h member => ?_
    exact newcomer place name h (List.mem_cons_of_mem _ member)

/-- Handlers stay discreet throughout an operation if those that are put in are. -/
theorem Accounts.discreet {errands : List (Errand H)} {journal : List (Stage H)}
    (accounts : Accounts hooks errands journal p q) (discreet : Discreet hooks p.entries)
    (newcomer : ∀ place name h, .enter place name h ∈ errands → hooks.Discreet h) :
    Discreet hooks q.entries := by
  induction accounts with
  | done => exact discreet
  | next performs drains _ ih =>
    have entered := performs.discreet discreet fun place name h same =>
      newcomer place name h (same ▸ List.mem_cons_self)
    exact ih (entered.of_kin drains.roster.entries) fun place name h member =>
      newcomer place name h (List.mem_cons_of_mem _ member)

/-- What is planned with discreet handlers finishes. -/
theorem Planned.finishes {result : Except Failure Unit} {errands : List (Errand H)}
    {f : Nat → Option (Except Failure Unit × Pipeline W H)}
    (planned : Planned hooks result errands f p) (discreet : Discreet hooks p.entries)
    (newcomer : ∀ place name h, .enter place name h ∈ errands → hooks.Discreet h) :
    ∃ q, Finishes f (result, q) := by
  induction planned with
  | done same => exact ⟨_, 0, fun bound _ => same bound⟩
  | next performs same _ ih =>
    have entered := performs.discreet discreet fun place name h same =>
      newcomer place name h (same ▸ List.mem_cons_self)
    obtain ⟨r, least, settled⟩ := exists_settled entered
    obtain ⟨stages, drains⟩ := settle_drains (settled least (Nat.le_refl _))
    obtain ⟨t, least', finished⟩ := ih stages r drains (entered.of_kin drains.roster.entries)
      fun place name h member => newcomer place name h (List.mem_cons_of_mem _ member)
    refine ⟨t, max least least', fun bound more => ?_⟩
    have drained := settled bound (le_of_max_le_left more)
    refine (same bound).trans ((congrArg (Option.bind · _) drained).trans ?_)
    exact finished bound (le_of_max_le_right more)

end Pipeline

namespace Operation

open Pipeline

variable {hooks : Hooks W H} {p q : Pipeline W H} {o : Operation H}

/-- The handlers that are put in are those of the operation. -/
theorem newcomer?_of_enter {place : Nat} {name : String} {h : H}
    (enters : .enter place name h ∈ o.errands p) : o.newcomer? = some (name, h) := by
  -- whatever is checked before a handler is added, the errand is of this handler
  have entered {β : Type} {check : Except Failure β} {place' : β → Nat} {name' : String} {h' : H}
      (member : .enter place name h ∈ granted check fun b => [.enter (place' b) name' h']) :
      some (name', h') = some (name, h) := by
    obtain ⟨b, there⟩ := exists_of_mem_granted member
    cases List.mem_singleton.mp there
    rfl
  cases o with
  | addFirst _ _ => exact entered enters
  | addLast _ _ => exact entered enters
  | addBefore _ _ _ => exact entered enters
  | addAfter _ _ _ => exact entered enters
  | replace old name' h' =>
    obtain ⟨b, there⟩ := exists_of_mem_granted enters
    obtain there | there := List.mem_cons.mp there
    · cases there
    · cases List.mem_singleton.mp there
      rfl
  | remove name' =>
    obtain ⟨b, there⟩ := exists_of_mem_granted enters
    cases List.mem_singleton.mp there
  | ringTimer id =>
    rw [errands] at enters
    split at enters
    · cases List.mem_singleton.mp enters
    · cases enters
  | _ => cases List.mem_singleton.mp enters

/-- An operation on discreet handlers gives a result with every bound that is not too low. -/
theorem apply_finishes (hooks : Hooks W H) (p : Pipeline W H) (o : Operation H)
    (discreet : Discreet hooks p.entries)
    (newcomer : ∀ name h, o.newcomer? = some (name, h) → hooks.Discreet h) :
    ∃ result q journal, Finishes (fun bound => o.apply hooks bound p) (result, q) ∧
      Accounts hooks (o.errands p) journal p q := by
  obtain ⟨result, planned⟩ := exists_planned hooks p o
  obtain ⟨q, least, enough⟩ := planned.finishes discreet fun _ name h enters =>
    newcomer name h (newcomer?_of_enter enters)
  obtain ⟨journal, accounts⟩ := apply_accounts (enough least (Nat.le_refl _))
  exact ⟨result, q, journal, ⟨least, enough⟩, accounts⟩

/-- **Effects come to an end**: all standard handlers are `Discreet`, and every operation on a
pipeline of discreet handlers `Finishes`, however many effects their hooks leave. Each stage of its
journal `Narrows`: of what is done from the queue only an event puts anything into it again, and
only by handlers behind its origin. -/
theorem apply_ends :
    (∀ {U : Type} (services : Services U) (h : StandardHandler U),
      (StandardHandler.hooks services).Discreet h) ∧
    ∀ {W H : Type} {hooks : Hooks W H} {p : Pipeline W H} {o : Operation H},
      Discreet hooks p.entries → (∀ name h, o.newcomer? = some (name, h) → hooks.Discreet h) →
      ∃ result q journal, Finishes (fun bound => o.apply hooks bound p) (result, q) ∧
        Accounts hooks (o.errands p) journal p q ∧ ∀ stage ∈ journal, stage.Narrows := by
  refine ⟨StandardHandler.discreet, @fun W H hooks p o discreet newcomer => ?_⟩
  obtain ⟨result, q, journal, finishes, accounts⟩ := apply_finishes hooks p o discreet newcomer
  exact ⟨result, q, journal, finishes, accounts, accounts.narrows discreet fun _ name h enters =>
    newcomer name h (newcomer?_of_enter enters)⟩

/-- Handlers that answer every event with two further events and a write. -/
def chattering : Hooks Unit Unit where
  role _ := .duplex
  signal s _ h w :=
    match s with
    | .event e => ⟨h, w, [.raise e, .raise e, .write (.encoded .empty)], .ok ()⟩
    | _ => .still h w (.ok ())
  read item _ h w := .still h w (.ok (some item))
  write item _ h w := .still h w (.ok item)
  caught _ _ h w := .still h w ()
  fresh h := h

/-- A channel with three of them. -/
def chatterers : Pipeline Unit Unit where
  channel := { here := ⟨.unspecified4, 0, 0⟩ }
  world := ()
  entries := [⟨0, "a", ()⟩, ⟨1, "b", ()⟩, ⟨2, "c", ()⟩]
  nextId := 3

/-- An event for all three comes to an end. -/
theorem apply_ends_chatterers :
    Discreet chattering chatterers.entries ∧
      (∀ name h, (raise .allIdle : Operation Unit).newcomer? = some (name, h) →
        chattering.Discreet h) ∧
      ∃ result q journal,
        Finishes (fun bound => (raise .allIdle).apply chattering bound chatterers) (result, q) ∧
        Accounts chattering ((raise .allIdle : Operation Unit).errands chatterers) journal
          chatterers q ∧ ∀ stage ∈ journal, stage.Narrows := by
  have discreet (h : Unit) : chattering.Discreet h :=
    fun _ _ _ _ => ⟨fun _ _ => rfl, fun _ _ => rfl⟩
  have all : Discreet chattering chatterers.entries := fun e _ => discreet e.handler
  exact ⟨all, fun _ h _ => discreet h, apply_ends.2 all fun _ h _ => discreet h⟩

end Operation

end PeerMessaging
