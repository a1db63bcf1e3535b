import PeerMessaging.Proofs.Channel.Walks

/-!
# Accounts of operations

Every operation on a pipeline sets out on some errands: a change of the arrangement, a signal, an
item on its way. An errand is one walk, and what the walk put off is worked off before the next
errand, which means further errands, one for each thing put off. An operation that is refused has
no errand.

The account of an operation is the journal of all its stages, each with its cause, its errand and
the calls of its walk. An operation that gives a result has such an account. One that gives none,
because what is put off is more than it may do, has a journal all the same: it tells as many stages
as the operation may work off, and perhaps they never end.
-/

namespace PeerMessaging

variable {W H : Type}

/-! ## Errands -/

/-- What a walk is for: the way of an item, a signal for all from a place on, the channel's change
of state, the ring of one handler's timer, a handler that comes or a handler that goes. -/
inductive Errand (H : Type) where
  | read (item : Item)
  | write (item : Item)
  | spread (s : Signal) (start : Nat)
  | switch (active : Bool)
  | ring (place : Nat)
  | enter (place : Nat) (name : String) (h : H)
  | leave (place : Nat)

/-- The errand of something that was put off: an event is for those behind the one who raised
it. -/
def Deferred.errand : Deferred → Errand H
  | .write item => .write item
  | .event origin e => .spread (.event e) (origin + 1)

namespace Pipeline

variable {hooks : Hooks W H} {p q r t : Pipeline W H}

/-- The pipeline with a further handler, which has the next number. -/
def joined (p : Pipeline W H) (place : Nat) (name : String) (h : H) : Pipeline W H :=
  { p with entries := p.entries.insertIdx place ⟨p.nextId, name, h⟩, nextId := p.nextId + 1 }

/-- The pipeline whose channel is in a state. -/
def switched (p : Pipeline W H) (active : Bool) : Pipeline W H :=
  { p with channel := { p.channel with active := active } }

/-- The signal of the channel's state. -/
def stateSignal : Bool → Signal
  | true => .active
  | false => .inactive

/-- An errand is done by a walk with the given calls and ending. An item that was read and came
through is left over. An item that was written and came through as an encoded buffer is emitted
to where the item that set out was to go, and nothing is emitted for any other. -/
inductive Performs (hooks : Hooks W H) :
    Errand H → List Call → Ending → Pipeline W H → Pipeline W H → Prop
  | read {p q : Pipeline W H} {item : Item} {calls : List Call} {ending : Ending}
      (walk : Carried hooks .inward (p.placesFrom 0) item calls ending p q) :
      Performs hooks (.read item) calls ending p
        { q with unhandled := q.unhandled ++ ending.left }
  | sent {p q : Pipeline W H} {item : Item} {calls : List Call} {buffer : Gather}
      (walk : Carried hooks .outward (p.placesFrom 0) item calls (.through (.encoded buffer)) p q) :
      Performs hooks (.write item) calls (.through (.encoded buffer)) p
        (q.emit buffer item.destination)
  | unsent {p q : Pipeline W H} {item : Item} {calls : List Call} {ending : Ending}
      (walk : Carried hooks .outward (p.placesFrom 0) item calls ending p q)
      (raw : ∀ buffer, ending ≠ .through (.encoded buffer)) :
      Performs hooks (.write item) calls ending p q
  | spread {p q : Pipeline W H} {s : Signal} {start : Nat} {calls : List Call}
      (walk : Heard hooks s (p.placesFrom start) calls p q) :
      Performs hooks (.spread s start) calls .over p q
  | switch {p q : Pipeline W H} {active : Bool} {calls : List Call}
      (walk : Heard hooks (stateSignal active) (p.placesFrom 0) calls (p.switched active) q) :
      Performs hooks (.switch active) calls .over p q
  | ring {p q : Pipeline W H} {place : Nat} {calls : List Call}
      (walk : Heard hooks .timer [place] calls p q) :
      Performs hooks (.ring place) calls .over p q
  | enter {p q : Pipeline W H} {place : Nat} {name : String} {h : H} {calls : List Call}
      (walk : Heard hooks .added [place] calls (p.joined place name h) q) :
      Performs hooks (.enter place name h) calls .over p q
  | leave {p q : Pipeline W H} {place : Nat} {answer : Answer} {c : Call}
      (asks : Asks hooks place (.hear .removed) answer c p q) :
      Performs hooks (.leave place) [c] .over p { q with entries := q.entries.eraseIdx place }

/-- The pipeline at the start of an errand's walk. -/
def begun (p : Pipeline W H) : Errand H → Pipeline W H
  | .switch active => p.switched active
  | .enter place name h => p.joined place name h
  | _ => p

/-- The pipeline at the end of an errand, from the end of its walk. -/
def finished (p : Pipeline W H) : Errand H → Ending → Pipeline W H
  | .read _, ending => { p with unhandled := p.unhandled ++ ending.left }
  | .write item, .through (.encoded buffer) => p.emit buffer item.destination
  | .leave place, _ => { p with entries := p.entries.eraseIdx place }
  | _, _ => p

/-- An errand is a walk, and what changes beside the walk is told by the errand and its ending. -/
theorem Performs.walk {errand : Errand H} {calls : List Call} {ending : Ending}
    (performs : Performs hooks errand calls ending p q) :
    ∃ m, Steady hooks (calls.flatMap Call.asked) (p.begun errand) m ∧
      q = m.finished errand ending := by
  cases performs with
  | read walk => exact ⟨_, walk.steady, rfl⟩
  | sent walk => exact ⟨_, walk.steady, rfl⟩
  | unsent walk raw =>
    refine ⟨q, walk.steady, ?_⟩
    unfold finished
    split
    · contradiction
    · exact absurd rfl (raw _)
    · contradiction
    · rfl
  | spread walk => exact ⟨_, walk.steady, rfl⟩
  | switch walk => exact ⟨_, walk.steady, rfl⟩
  | ring walk => exact ⟨_, walk.steady, rfl⟩
  | enter walk => exact ⟨_, walk.steady, rfl⟩
  | leave asks =>
    rw [List.flatMap_singleton]
    exact ⟨_, asks.steady, rfl⟩

theorem begun_queue (p : Pipeline W H) (errand : Errand H) : (p.begun errand).queue = p.queue := by
  cases errand <;> rfl

theorem finished_queue (p : Pipeline W H) (errand : Errand H) (ending : Ending) :
    (p.finished errand ending).queue = p.queue := by
  unfold finished
  split <;> rfl

/-- What a walk put off waits behind what waited already. -/
theorem Performs.queue {errand : Errand H} {calls : List Call} {ending : Ending}
    (performs : Performs hooks errand calls ending p q) :
    q.queue = p.queue ++ calls.flatMap Call.asked := by
  obtain ⟨m, steady, rfl⟩ := performs.walk
  rw [finished_queue, steady.queue, begun_queue]

/-! ## Journals -/

/-- One stage of an operation: its cause if it was put off, the errand, and the walk. -/
structure Stage (H : Type) where
  cause : Option Deferred
  errand : Errand H
  calls : List Call
  ending : Ending

/-- The queue is worked off from its front until nothing is left. What waits longest is taken out
of the queue first and then done, in one stage of its own. -/
inductive Drains (hooks : Hooks W H) : List (Stage H) → Pipeline W H → Pipeline W H → Prop
  | idle {p : Pipeline W H} (empty : p.queue = []) : Drains hooks [] p p
  | next {p q r : Pipeline W H} {d : Deferred} {waiting : List Deferred} {calls : List Call}
      {ending : Ending} {stages : List (Stage H)} (queue : p.queue = d :: waiting)
      (performs : Performs hooks d.errand calls ending { p with queue := waiting } q)
      (later : Drains hooks stages q r) :
      Drains hooks (⟨some d, d.errand, calls, ending⟩ :: stages) p r

/-- Errands are done one after another, and what was put off is done in between. -/
inductive Accounts (hooks : Hooks W H) :
    List (Errand H) → List (Stage H) → Pipeline W H → Pipeline W H → Prop
  | done {p : Pipeline W H} : Accounts hooks [] [] p p
  | next {p q r t : Pipeline W H} {errand : Errand H} {errands : List (Errand H)}
      {calls : List Call} {ending : Ending} {stages journal : List (Stage H)}
      (performs : Performs hooks errand calls ending p q) (drains : Drains hooks stages q r)
      (later : Accounts hooks errands journal r t) :
      Accounts hooks (errand :: errands) (⟨none, errand, calls, ending⟩ :: (stages ++ journal)) p t

/-- The queue is being worked off from its front, and the stages tell what is done so far. -/
inductive Working (hooks : Hooks W H) : List (Stage H) → Pipeline W H → Pipeline W H → Prop
  | pause {p : Pipeline W H} : Working hooks [] p p
  | next {p q r : Pipeline W H} {d : Deferred} {waiting : List Deferred} {calls : List Call}
      {ending : Ending} {stages : List (Stage H)} (queue : p.queue = d :: waiting)
      (performs : Performs hooks d.errand calls ending { p with queue := waiting } q)
      (later : Working hooks stages q r) :
      Working hooks (⟨some d, d.errand, calls, ending⟩ :: stages) p r

/-- Errands are under way, and the journal tells what is done so far. What the last of them put off
may still be waiting. -/
inductive Underway (hooks : Hooks W H) :
    List (Errand H) → List (Stage H) → Pipeline W H → Pipeline W H → Prop
  | pause {errands : List (Errand H)} {p : Pipeline W H} : Underway hooks errands [] p p
  | amid {p q r : Pipeline W H} {errand : Errand H} {errands : List (Errand H)}
      {calls : List Call} {ending : Ending} {stages : List (Stage H)}
      (performs : Performs hooks errand calls ending p q) (working : Working hooks stages q r) :
      Underway hooks (errand :: errands) (⟨none, errand, calls, ending⟩ :: stages) p r
  | next {p q r t : Pipeline W H} {errand : Errand H} {errands : List (Errand H)}
      {calls : List Call} {ending : Ending} {stages journal : List (Stage H)}
      (performs : Performs hooks errand calls ending p q) (drains : Drains hooks stages q r)
      (later : Underway hooks errands journal r t) :
      Underway hooks (errand :: errands) (⟨none, errand, calls, ending⟩ :: (stages ++ journal)) p t

theorem Drains.working {stages : List (Stage H)} (drains : Drains hooks stages p q) :
    Working hooks stages p q := by
  induction drains with
  | idle _ => exact .pause
  | next queue performs _ ih => exact .next queue performs ih

/-- Errands that are all done with are errands under way. -/
theorem Accounts.underway {errands : List (Errand H)} {journal : List (Stage H)}
    (accounts : Accounts hooks errands journal p q) : Underway hooks errands journal p q := by
  induction accounts with
  | done => exact .pause
  | next performs drains _ ih => exact .next performs drains ih

/-! ## The handlers -/

/-- The handlers of a pipeline and the number for the next one. -/
structure Roster (H : Type) where
  entries : List (Entry H)
  nextId : Nat

/-- The handlers of a pipeline as it stands. -/
def roster (p : Pipeline W H) : Roster H := ⟨p.entries, p.nextId⟩

/-- The handlers after an errand. -/
def Roster.serve (l : Roster H) : Errand H → Roster H
  | .enter place name h => ⟨l.entries.insertIdx place ⟨l.nextId, name, h⟩, l.nextId + 1⟩
  | .leave place => ⟨l.entries.eraseIdx place, l.nextId⟩
  | _ => l

/-- The same handlers later on. -/
structure Roster.Kin (hooks : Hooks W H) (l m : Roster H) : Prop where
  entries : List.Forall₂ (Entry.Kin hooks) l.entries m.entries
  nextId : m.nextId = l.nextId

namespace Roster.Kin

theorem refl (hooks : Hooks W H) (l : Roster H) : l.Kin hooks l := ⟨kin_refl hooks _, rfl⟩

theorem trans {l m n : Roster H} (first : l.Kin hooks m) (second : m.Kin hooks n) :
    l.Kin hooks n :=
  ⟨kin_trans first.entries second.entries, second.nextId.trans first.nextId⟩

/-- Steady handlers keep the roster of the pipeline up to kinship. -/
theorem of_steady {asked : List Deferred} (steady : Steady hooks asked p q) :
    p.roster.Kin hooks q.roster := ⟨steady.entries, steady.nextId⟩

end Roster.Kin

theorem kin_eraseIdx {l m : List (Entry H)} (kin : List.Forall₂ (Entry.Kin hooks) l m)
    (place : Nat) : List.Forall₂ (Entry.Kin hooks) (l.eraseIdx place) (m.eraseIdx place) := by
  induction kin generalizing place with
  | nil => exact .nil
  | cons head tail ih =>
    cases place with
    | zero => exact tail
    | succ place => exact .cons head (ih place)

theorem kin_insertIdx {l m : List (Entry H)} (kin : List.Forall₂ (Entry.Kin hooks) l m)
    (place : Nat) (e : Entry H) :
    List.Forall₂ (Entry.Kin hooks) (l.insertIdx place e) (m.insertIdx place e) := by
  induction place generalizing l m with
  | zero => exact .cons (.refl hooks e) kin
  | succ place ih =>
    cases kin with
    | nil => exact .nil
    | cons head tail => exact .cons head (ih tail)

/-- What an errand does to the handlers does not depend on their states. -/
theorem Roster.Kin.serve {l m : Roster H} (kin : l.Kin hooks m) (errand : Errand H) :
    (l.serve errand).Kin hooks (m.serve errand) := by
  cases errand with
  | enter place name h =>
    refine ⟨?_, congrArg Nat.succ kin.nextId⟩
    rw [Roster.serve, Roster.serve, kin.nextId]
    exact kin_insertIdx kin.entries place _
  | leave place => exact ⟨kin_eraseIdx kin.entries place, kin.nextId⟩
  | _ => exact kin

/-- When an errand is done, the roster is the one that `Roster.serve` gives, up to kinship. -/
theorem Performs.roster {errand : Errand H} {calls : List Call} {ending : Ending}
    (performs : Performs hooks errand calls ending p q) :
    (p.roster.serve errand).Kin hooks q.roster := by
  obtain ⟨m, steady, rfl⟩ := performs.walk
  cases errand with
  | leave place => exact ⟨kin_eraseIdx steady.entries place, steady.nextId⟩
  | write item =>
    have same : (m.finished (.write item) ending).roster = m.roster := by
      unfold finished
      split <;> first | rfl | contradiction
    rw [same]
    exact .of_steady steady
  | _ => exact ⟨steady.entries, steady.nextId⟩

/-- Nothing that waits in the queue changes the roster. -/
theorem serve_deferred (l : Roster H) (d : Deferred) : l.serve d.errand = l := by
  cases d <;> rfl

/-- What was put off brings no handler and takes none away. -/
theorem Working.roster {stages : List (Stage H)} (working : Working hooks stages p q) :
    p.roster.Kin hooks q.roster := by
  induction working with
  | pause => exact .refl hooks _
  | next _ performs _ ih =>
    have kept := performs.roster
    rw [serve_deferred] at kept
    exact Roster.Kin.trans ⟨kept.entries, kept.nextId⟩ ih

/-- When the queue is worked off the handlers are those that were there. -/
theorem Drains.roster {stages : List (Stage H)} (drains : Drains hooks stages p q) :
    p.roster.Kin hooks q.roster := drains.working.roster

/-- Kinship of rosters is kept by the errands that are done on both. -/
theorem Roster.Kin.serveAll {l m : Roster H} (kin : l.Kin hooks m) (errands : List (Errand H)) :
    (errands.foldl Roster.serve l).Kin hooks (errands.foldl Roster.serve m) := by
  induction errands generalizing l m with
  | nil => exact kin
  | cons errand errands ih => exact ih (kin.serve errand)

/-- The handlers after an operation are those that its errands leave. -/
theorem Accounts.roster {errands : List (Errand H)} {journal : List (Stage H)}
    (accounts : Accounts hooks errands journal p q) :
    (errands.foldl Roster.serve p.roster).Kin hooks q.roster := by
  induction accounts with
  | done => exact .refl hooks _
  | next performs drains _ ih =>
    rw [List.foldl_cons]
    exact ((performs.roster.trans drains.roster).serveAll _).trans ih

/-- The handlers amid an operation are those that the errands begun so far leave. -/
theorem Underway.roster {errands : List (Errand H)} {journal : List (Stage H)}
    (underway : Underway hooks errands journal p q) :
    ∃ begun, begun <+: errands ∧ (begun.foldl Roster.serve p.roster).Kin hooks q.roster := by
  induction underway with
  | pause => exact ⟨[], List.nil_prefix, .refl hooks _⟩
  | @amid _ _ _ errand _ _ _ _ performs working =>
    exact ⟨[errand], List.prefix_append _ _, performs.roster.trans working.roster⟩
  | @next _ _ _ _ errand _ _ _ _ _ performs drains _ ih =>
    obtain ⟨begun, front, kin⟩ := ih
    refine ⟨errand :: begun, (List.prefix_cons_inj errand).mpr front, ?_⟩
    exact ((performs.roster.trans drains.roster).serveAll _).trans kin

/-! ## The queue -/

theorem Drains.queue {stages : List (Stage H)} (drains : Drains hooks stages p q) :
    q.queue = [] := by
  induction drains with
  | idle empty => exact empty
  | next _ _ _ ih => exact ih

/-- Errands that begin with an empty queue end with one. -/
theorem Accounts.queue {errands : List (Errand H)} {journal : List (Stage H)}
    (accounts : Accounts hooks errands journal p q) (idle : p.queue = []) : q.queue = [] := by
  induction accounts with
  | done => exact idle
  | next _ drains _ ih => exact ih drains.queue

/-! ## What the functions do -/

/-- What becomes of an item that is written, from how its walk ended. -/
def Ending.verdict : Ending → Except Failure Unit
  | .through (.encoded _) => .ok ()
  | .failed f => .error f
  | _ => .error (.state .notEncoded)

/-- `writeNow` performs the errand of writing, and its result is the verdict of the ending. -/
theorem writeNow_performs (hooks : Hooks W H) (p : Pipeline W H) (item : Item) :
    ∃ calls ending, Performs hooks (.write item) calls ending p (p.writeNow hooks item).2 ∧
      (p.writeNow hooks item).1 = ending.verdict := by
  obtain ⟨calls, ending, walk, yields⟩ := writeOver_carried hooks item
    fun _ => lt_of_mem_placesFrom
  rw [writeNow]
  revert walk yields
  rcases p.writeOver hooks (p.placesFrom 0) item with ⟨result, q⟩
  intro walk yields
  cases yields with
  | failed => exact ⟨calls, _, .unsent walk nofun, rfl⟩
  | @through last =>
    cases last with
    | encoded buffer => exact ⟨calls, _, .sent walk, rfl⟩
    | packet => exact ⟨calls, _, .unsent walk nofun, rfl⟩
    | message => exact ⟨calls, _, .unsent walk nofun, rfl⟩

/-- `perform` does the errand of what waited in the queue. -/
theorem perform_performs (hooks : Hooks W H) (d : Deferred) (p : Pipeline W H) :
    ∃ calls ending, Performs hooks d.errand calls ending p (perform hooks d p) := by
  cases d with
  | write item =>
    obtain ⟨calls, ending, performs, -⟩ := writeNow_performs hooks p item
    exact ⟨calls, ending, performs⟩
  | event origin event =>
    obtain ⟨calls, walk⟩ := signalFrom_heard hooks p (.event event) (origin + 1)
    exact ⟨calls, .over, .spread walk⟩

theorem settle_idle (idle : p.queue = []) (bound : Nat) : p.settle hooks bound = some p := by
  cases bound <;> rw [settle, idle]

/-- `settle` performs what is first in the queue and goes on with a bound that is one less. -/
theorem settle_next {d : Deferred} {waiting : List Deferred} (queue : p.queue = d :: waiting)
    (bound : Nat) : p.settle hooks (bound + 1) =
      (perform hooks d { p with queue := waiting }).settle hooks bound := by
  rw [settle, queue]

/-- A `settle` that gives a result has drained the queue. -/
theorem settle_drains {bound : Nat} (settled : p.settle hooks bound = some q) :
    ∃ stages, Drains hooks stages p q := by
  fun_induction settle hooks bound p with
  | case1 bound p queue =>
    cases settled
    exact ⟨[], .idle queue⟩
  | case2 p d waiting queue => cases settled
  | case3 p d waiting queue bound ih =>
    obtain ⟨calls, ending, performs⟩ := perform_performs hooks d { p with queue := waiting }
    obtain ⟨stages, later⟩ := ih settled
    exact ⟨_, .next queue performs later⟩

/-- A bound that is too low is used up. -/
theorem settle_working {bound : Nat} (unsettled : p.settle hooks bound = none) :
    ∃ stages q, Working hooks stages p q ∧ stages.length = bound := by
  fun_induction settle hooks bound p with
  | case1 bound p queue => cases unsettled
  | case2 p d waiting queue => exact ⟨[], p, .pause, rfl⟩
  | case3 p d waiting queue bound ih =>
    obtain ⟨calls, ending, performs⟩ := perform_performs hooks d { p with queue := waiting }
    obtain ⟨stages, q, later, long⟩ := ih unsettled
    exact ⟨_, q, .next queue performs later, congrArg Nat.succ long⟩

/-- What comes of something with a bound that has errands and a certain result: either all errands
are done and it gives the result, or it gives none and the bound is used up. -/
inductive Tracked (hooks : Hooks W H) (bound : Nat) (result : Except Failure Unit)
    (errands : List (Errand H)) :
    Option (Except Failure Unit × Pipeline W H) → List (Stage H) → Pipeline W H → Pipeline W H →
      Prop
  | ended {journal : List (Stage H)} {p q : Pipeline W H}
      (accounts : Accounts hooks errands journal p q) :
      Tracked hooks bound result errands (some (result, q)) journal p q
  | cut {journal : List (Stage H)} {p q : Pipeline W H}
      (underway : Underway hooks errands journal p q) (long : bound ≤ journal.length) :
      Tracked hooks bound result errands none journal p q

/-- Something with a bound does errands one after another, works off the queue after each of them,
and then gives a result that was fixed before. -/
inductive Planned (hooks : Hooks W H) (result : Except Failure Unit) :
    List (Errand H) → (Nat → Option (Except Failure Unit × Pipeline W H)) → Pipeline W H → Prop
  | done {p : Pipeline W H} {f : Nat → Option (Except Failure Unit × Pipeline W H)}
      (same : ∀ bound, f bound = some (result, p)) : Planned hooks result [] f p
  | next {p q : Pipeline W H} {errand : Errand H} {errands : List (Errand H)} {calls : List Call}
      {ending : Ending} {f : Nat → Option (Except Failure Unit × Pipeline W H)}
      {g : Nat → Pipeline W H → Option (Except Failure Unit × Pipeline W H)}
      (performs : Performs hooks errand calls ending p q)
      (same : ∀ bound, f bound = (q.settle hooks bound).bind (g bound))
      (later : ∀ stages r, Drains hooks stages q r →
        Planned hooks result errands (fun bound => g bound r) r) :
      Planned hooks result (errand :: errands) f p

/-- What is tracked is under way, whether it ends or not. -/
theorem Tracked.underway {bound : Nat} {result : Except Failure Unit} {errands : List (Errand H)}
    {journal : List (Stage H)} {done : Option (Except Failure Unit × Pipeline W H)}
    (tracked : Tracked hooks bound result errands done journal p q) :
    Underway hooks errands journal p q := by
  cases tracked with
  | ended accounts => exact accounts.underway
  | cut underway _ => exact underway

/-- Something that is tracked and gives a result has done all its errands. -/
theorem Tracked.accounts {bound : Nat} {result result' : Except Failure Unit}
    {errands : List (Errand H)} {journal : List (Stage H)}
    {done : Option (Except Failure Unit × Pipeline W H)}
    (tracked : Tracked hooks bound result errands done journal p q)
    (ended : done = some (result', r)) :
    result' = result ∧ r = q ∧ Accounts hooks errands journal p q := by
  subst ended
  cases tracked with
  | ended accounts => exact ⟨rfl, rfl, accounts⟩

/-- Something that is tracked and gives no result has used up its bound. -/
theorem Tracked.le_length {bound : Nat} {result : Except Failure Unit} {errands : List (Errand H)}
    {journal : List (Stage H)} {done : Option (Except Failure Unit × Pipeline W H)}
    (tracked : Tracked hooks bound result errands done journal p q) (cut : done = none) :
    bound ≤ journal.length := by
  subst cut
  cases tracked with
  | cut _ long => exact long

/-- A further errand before others that are tracked. -/
theorem Tracked.cons {bound : Nat} {result : Except Failure Unit} {errand : Errand H}
    {errands : List (Errand H)} {calls : List Call} {ending : Ending}
    {stages journal : List (Stage H)} {done : Option (Except Failure Unit × Pipeline W H)}
    (performs : Performs hooks errand calls ending p q) (drains : Drains hooks stages q r)
    (tracked : Tracked hooks bound result errands done journal r t) :
    Tracked hooks bound result (errand :: errands) done
      (⟨none, errand, calls, ending⟩ :: (stages ++ journal)) p t := by
  cases tracked with
  | ended accounts => exact .ended (.next performs drains accounts)
  | cut underway long =>
    refine .cut (.next performs drains underway) (Nat.le_succ_of_le ?_)
    rw [List.length_append]
    exact Nat.le_add_left_of_le long

/-- An errand whose walk is done is tracked while what it put off is worked off, and then whatever
comes next is. -/
theorem Performs.tracked {bound : Nat} {result : Except Failure Unit} {errand : Errand H}
    {errands : List (Errand H)} {calls : List Call} {ending : Ending}
    {done : Option (Except Failure Unit × Pipeline W H)}
    {next : Pipeline W H → Option (Except Failure Unit × Pipeline W H)}
    (performs : Performs hooks errand calls ending p q)
    (same : done = (q.settle hooks bound).bind next)
    (later : ∀ stages r, Drains hooks stages q r →
      ∃ journal t, Tracked hooks bound result errands (next r) journal r t) :
    ∃ journal t, Tracked hooks bound result (errand :: errands) done
      (⟨none, errand, calls, ending⟩ :: journal) p t := by
  subst same
  cases settled : q.settle hooks bound with
  | none =>
    obtain ⟨stages, r, working, long⟩ := settle_working settled
    exact ⟨stages, r, .cut (.amid performs working) (Nat.le_succ_of_le (Nat.le_of_eq long.symm))⟩
  | some r =>
    obtain ⟨stages, drains⟩ := settle_drains settled
    obtain ⟨journal, t, tracked⟩ := later stages r drains
    exact ⟨stages ++ journal, t, tracked.cons performs drains⟩

namespace Planned

variable {result : Except Failure Unit} {errands : List (Errand H)}
  {f : Nat → Option (Except Failure Unit × Pipeline W H)}

/-- What is planned is tracked with every bound. -/
theorem tracked (planned : Planned hooks result errands f p) (bound : Nat) :
    ∃ journal q, Tracked hooks bound result errands (f bound) journal p q := by
  induction planned with
  | done same =>
    rw [same]
    exact ⟨[], _, .ended .done⟩
  | next performs same _ ih =>
    obtain ⟨journal, t, tracked⟩ := performs.tracked (same bound) ih
    exact ⟨_, t, tracked⟩

/-- The journal of what is planned begins with the first errand, whatever the bound is. -/
theorem begins {errand : Errand H} (planned : Planned hooks result (errand :: errands) f p)
    (bound : Nat) :
    ∃ calls ending journal q,
      Tracked hooks bound result (errand :: errands) (f bound)
        (⟨none, errand, calls, ending⟩ :: journal) p q := by
  cases planned with
  | @next _ _ _ _ calls ending _ _ performs same later =>
    obtain ⟨journal, t, tracked⟩ := performs.tracked (same bound)
      fun stages r drains => (later stages r drains).tracked bound
    exact ⟨calls, ending, journal, t, tracked⟩

/-- The plan of a single errand. -/
theorem single {errand : Errand H} {calls : List Call} {ending : Ending}
    (performs : Performs hooks errand calls ending p q) (result : Except Failure Unit) :
    Planned hooks result [errand] (fun bound => (q.settle hooks bound).map fun r => (result, r))
      p :=
  .next performs (fun _ => Option.map_eq_bind) fun _ _ _ => .done fun _ => rfl

end Planned

/-- What comes of a change after a check: either the check passed and the change was made, or the
check refused it and nothing changed. -/
theorem changed_after {β : Type} {check : Except Failure β} {change : β → Option (Pipeline W H)}
    {result : Except Failure Unit} (changed : p.after check change = some (result, q)) :
    (∃ b, check = .ok b ∧ change b = some q ∧ result = .ok ()) ∨
      ∃ f, check = .error f ∧ result = .error f ∧ q = p := by
  cases check with
  | error f =>
    cases changed
    exact .inr ⟨f, rfl, rfl, rfl⟩
  | ok b =>
    obtain ⟨q', made, same⟩ := Option.map_eq_some_iff.mp changed
    cases same
    exact .inl ⟨b, rfl, made, rfl⟩

/-- An anchor is the place of an entry. -/
theorem lt_of_anchor {name : String} {place : Nat} (anchored : p.anchor name = .ok place) :
    place < p.entries.length := by
  rw [anchor] at anchored
  cases found : p.place? name with
  | none =>
    rw [found] at anchored
    cases anchored
  | some place' =>
    rw [found] at anchored
    cases anchored
    exact (List.findIdx?_eq_some_iff_getElem.mp found).1

/-- A place is found for a new name if the place is there and the name is free. -/
theorem anchorForNew_eq_ok {base name : String} {place : Nat} :
    p.anchorForNew base name = .ok place ↔
      p.anchor base = .ok place ∧ p.checkNew name = .ok () := by
  rw [anchorForNew]
  rcases p.anchor base with _ | found <;> rcases p.checkNew name with _ | _ <;> simp

/-- A handler that is put in hears of it, and then what was put off is worked off. -/
theorem insertAt_performs (hooks : Hooks W H) {place : Nat} (name : String) (h : H)
    (within : place ≤ p.entries.length) :
    ∃ calls m, Performs hooks (.enter place name h) calls .over p m ∧
      ∀ bound, p.insertAt hooks bound place name h = m.settle hooks bound := by
  have stands : place < (p.joined place name h).entries.length := by
    rw [joined, List.length_insertIdx_of_le_length within]
    exact Nat.lt_succ_of_le within
  obtain ⟨calls, walk⟩ := signalAt_heard hooks .added stands
  exact ⟨calls, _, .enter walk, fun _ => rfl⟩

/-- A handler hears that it goes, it is taken out, and then what was put off is worked off. -/
theorem removeAt_performs (hooks : Hooks W H) {place : Nat} (within : place < p.entries.length) :
    ∃ calls m, Performs hooks (.leave place) calls .over p m ∧
      ∀ bound, p.removeAt hooks bound place = m.settle hooks bound := by
  obtain ⟨e, stands⟩ := stands_of_lt within
  obtain ⟨c, asks⟩ := run_asks _ _ (.ok ()) stands rfl (ask_hear (s := .removed) rfl)
  exact ⟨[c], _, .leave asks, fun _ => rfl⟩

/-- When a handler is gone the chain is one shorter, so its old place is still a place to put a
handler in. -/
theorem Performs.place_le {place : Nat} {calls : List Call} {ending : Ending}
    {stages : List (Stage H)} (leaves : Performs hooks (.leave place) calls ending p q)
    (within : place < p.entries.length) (drains : Drains hooks stages q r) :
    place ≤ r.entries.length := by
  have shorter : r.entries.length = p.entries.length - 1 :=
    ((leaves.roster.trans drains.roster).entries.length_eq).symm.trans
      (List.length_eraseIdx_of_lt within)
  omega

end Pipeline

/-! ## Operations -/

namespace Operation

open Pipeline

variable {hooks : Hooks W H} {p q : Pipeline W H}

/-- The errands that a check lets pass. -/
def granted {β : Type} (check : Except Failure β) (errands : β → List (Errand H)) :
    List (Errand H) :=
  match check with
  | .ok b => errands b
  | .error _ => []

/-- An errand that is set out on after a check belongs to a result of the check. -/
theorem exists_of_mem_granted {β : Type} {check : Except Failure β}
    {errands : β → List (Errand H)} {errand : Errand H} (member : errand ∈ granted check errands) :
    ∃ b, errand ∈ errands b := by
  cases check with
  | error f => cases member
  | ok b => exact ⟨b, member⟩

/-- The errands of an operation on a pipeline. A change that is refused has none, and neither has
the ring of a timer whose handler is gone. -/
def errands (p : Pipeline W H) : Operation H → List (Errand H)
  | addFirst name h => granted (p.checkNew name) fun () => [.enter 0 name h]
  | addLast name h => granted (p.checkNew name) fun () => [.enter p.entries.length name h]
  | addBefore base name h => granted (p.anchorForNew base name) fun place => [.enter place name h]
  | addAfter base name h =>
    granted (p.anchorForNew base name) fun place => [.enter (place + 1) name h]
  | replace old name h =>
    granted (if name = old then p.anchor old else p.anchorForNew old name) fun place =>
      [.leave place, .enter place name h]
  | remove name => granted (p.anchor name) fun place => [.leave place]
  | activate => [.switch true]
  | deactivate => [.switch false]
  | read item => [.read item]
  | raise event => [.spread (.event event) 0]
  | write item => [.write item]
  | ringTimer id =>
    match p.placeOfId id with
    | some place => [.ring place]
    | none => []

/-- Whether a check lets something pass. -/
def passed {β : Type} (check : Except Failure β) : Except Failure Unit := check.map fun _ => ()

/-- Whether an operation is allowed, as far as it is a change of the arrangement. -/
def checked (p : Pipeline W H) : Operation H → Except Failure Unit
  | addFirst name _ => passed (p.checkNew name)
  | addLast name _ => passed (p.checkNew name)
  | addBefore base name _ => passed (p.anchorForNew base name)
  | addAfter base name _ => passed (p.anchorForNew base name)
  | replace old name _ => passed (if name = old then p.anchor old else p.anchorForNew old name)
  | remove name => passed (p.anchor name)
  | _ => .ok ()

/-- A change after a check is planned if it is whenever the check passes. -/
theorem planned_after {β : Type} {check : Except Failure β}
    {change : Nat → β → Option (Pipeline W H)} {errands : β → List (Errand H)}
    (each : ∀ b, check = .ok b → Planned hooks (.ok ()) (errands b)
      (fun bound => (change bound b).map fun q => (.ok (), q)) p) :
    Planned hooks (passed check) (granted check errands)
      (fun bound => p.after check (change bound)) p := by
  cases check with
  | error f => exact .done fun _ => rfl
  | ok b => exact each b rfl

/-- A change that puts a handler in. -/
theorem enter_planned {place : Nat} {name : String} {h : H} (within : place ≤ p.entries.length) :
    Planned hooks (.ok ()) [.enter place name h]
      (fun bound => (p.insertAt hooks bound place name h).map fun q => (.ok (), q)) p := by
  obtain ⟨calls, m, performs, inserted⟩ := insertAt_performs hooks name h within
  simp only [inserted]
  exact .single performs _

/-- A change that takes a handler out. -/
theorem leave_planned {place : Nat} (within : place < p.entries.length) :
    Planned hooks (.ok ()) [.leave place]
      (fun bound => (p.removeAt hooks bound place).map fun q => (.ok (), q)) p := by
  obtain ⟨calls, m, performs, removed⟩ := removeAt_performs hooks within
  simp only [removed]
  exact .single performs _

/-- A change that takes a handler out and puts another in where it was. -/
theorem exchange_planned {place : Nat} {name : String} {h : H} (within : place < p.entries.length) :
    Planned hooks (.ok ()) [.leave place, .enter place name h]
      (fun bound => ((p.removeAt hooks bound place).bind (insertAt hooks bound place name h)).map
        fun q => (.ok (), q)) p := by
  obtain ⟨calls, m, leaves, removed⟩ := removeAt_performs hooks within
  simp only [removed, Option.map_bind]
  exact .next leaves (fun _ => rfl) fun _ _ drains => enter_planned (leaves.place_le within drains)

/-- Writing an item is one errand, and its verdict is the result. -/
theorem write_planned (hooks : Hooks W H) (p : Pipeline W H) (item : Item) :
    ∃ calls ending m, Performs hooks (.write item) calls ending p m ∧
      ∀ bound, (write item).apply hooks bound p =
        (m.settle hooks bound).map fun q => (ending.verdict, q) := by
  obtain ⟨calls, ending, performs, verdict⟩ := writeNow_performs hooks p item
  refine ⟨calls, ending, _, performs, fun bound => ?_⟩
  rw [← verdict]
  rfl

/-- Every operation but writing does its errands, and whether it is allowed is its result. -/
theorem apply_planned (hooks : Hooks W H) (p : Pipeline W H) {o : Operation H}
    (others : ∀ item, o ≠ .write item) :
    Planned hooks (o.checked p) (o.errands p) (fun bound => o.apply hooks bound p) p := by
  cases o with
  | addFirst name h => exact planned_after fun _ _ => enter_planned (Nat.zero_le _)
  | addLast name h => exact planned_after fun _ _ => enter_planned (Nat.le_refl _)
  | addBefore base name h =>
    exact planned_after fun _ found =>
      enter_planned (Nat.le_of_lt (lt_of_anchor (anchorForNew_eq_ok.mp found).1))
  | addAfter base name h =>
    exact planned_after fun _ found => enter_planned (lt_of_anchor (anchorForNew_eq_ok.mp found).1)
  | replace old name h =>
    refine planned_after fun _ found => exchange_planned ?_
    -- the check for the new name is left out if it is the old one
    split at found
    · exact lt_of_anchor found
    · exact lt_of_anchor (anchorForNew_eq_ok.mp found).1
  | remove name => exact planned_after fun _ found => leave_planned (lt_of_anchor found)
  | activate =>
    obtain ⟨calls, walk⟩ := signalFrom_heard hooks (p.switched true) .active 0
    exact .single (.switch walk) _
  | deactivate =>
    obtain ⟨calls, walk⟩ := signalFrom_heard hooks (p.switched false) .inactive 0
    exact .single (.switch walk) _
  | read item =>
    have within : ∀ place ∈ p.placesFrom 0, place < p.entries.length :=
      fun _ => lt_of_mem_placesFrom
    obtain ⟨calls, ending, m, walk, walked⟩ := readOver_carried hooks item within
    simp only [apply, Pipeline.read, walked]
    exact .single (.read walk) _
  | raise event =>
    obtain ⟨calls, walk⟩ := signalFrom_heard hooks p (.event event) 0
    exact .single (.spread walk) _
  | write item => exact absurd rfl (others item)
  | ringTimer id =>
    simp only [errands, apply, Pipeline.ringTimer]
    cases found : p.placeOfId id with
    | none => exact .done fun _ => rfl
    | some place =>
      obtain ⟨calls, walk⟩ := signalAt_heard hooks .timer
        (List.findIdx?_eq_some_iff_getElem.mp found).1
      exact .single (.ring walk) _

/-- Every operation has a plan. -/
theorem exists_planned (hooks : Hooks W H) (p : Pipeline W H) (o : Operation H) :
    ∃ result, Planned hooks result (o.errands p) (fun bound => o.apply hooks bound p) p := by
  by_cases writes : ∃ item, o = .write item
  · obtain ⟨item, rfl⟩ := writes
    obtain ⟨calls, ending, m, performs, applied⟩ := write_planned hooks p item
    simp only [applied]
    exact ⟨_, .single performs _⟩
  · exact ⟨_, apply_planned hooks p fun item same => writes ⟨item, same⟩⟩

/-- An operation that gives a result did its errands, and after each of them what was put off. -/
theorem apply_accounts {o : Operation H} {bound : Nat} {result : Except Failure Unit}
    (applied : o.apply hooks bound p = some (result, q)) :
    ∃ journal, Accounts hooks (o.errands p) journal p q := by
  obtain ⟨_, planned⟩ := exists_planned hooks p o
  obtain ⟨journal, _, tracked⟩ := planned.tracked bound
  obtain ⟨-, rfl, accounts⟩ := tracked.accounts applied
  exact ⟨journal, accounts⟩

/-! ## Histories -/

/-- The handler that an operation is to put in, with its name. -/
def newcomer? : Operation H → Option (String × H)
  | addFirst name h => some (name, h)
  | addLast name h => some (name, h)
  | addBefore _ name h => some (name, h)
  | addAfter _ name h => some (name, h)
  | replace _ name h => some (name, h)
  | _ => none

/-- The handler that an operation with a given result did put in. -/
def admitted (p : Pipeline W H) (o : Operation H) : Except Failure Unit → List (Entry H)
  | .ok () => (o.newcomer?.map fun (name, h) => ⟨p.nextId, name, h⟩).toList
  | .error _ => []

end Operation

/-- How a pipeline can have come about, with every handler that was ever put in. It was empty
once. Operations were applied to it, whatever came of them. In between anything may have happened
around it: time passed, what was left over or sent was taken, the world changed. -/
inductive History (hooks : Hooks W H) : List (Entry H) → Pipeline W H → Prop
  | new {p : Pipeline W H} (entries : p.entries = []) (nextId : p.nextId = 0)
      (queue : p.queue = []) : History hooks [] p
  | operation {past : List (Entry H)} {p q : Pipeline W H} {o : Operation H} {bound : Nat}
      {result : Except Failure Unit} (history : History hooks past p)
      (applied : o.apply hooks bound p = some (result, q)) :
      History hooks (past ++ o.admitted p result) q
  | outside {past : List (Entry H)} {p q : Pipeline W H} (history : History hooks past p)
      (entries : q.entries = p.entries) (nextId : q.nextId = p.nextId)
      (queue : q.queue = p.queue) : History hooks past q

/-- Between operations nothing waits. -/
theorem History.idle {hooks : Hooks W H} {past : List (Entry H)} {p : Pipeline W H}
    (history : History hooks past p) : p.queue = [] := by
  induction history with
  | new _ _ queue => exact queue
  | operation _ applied ih =>
    obtain ⟨journal, accounts⟩ := Operation.apply_accounts applied
    exact accounts.queue ih
  | outside _ _ _ queue ih => exact queue.trans ih

end PeerMessaging
