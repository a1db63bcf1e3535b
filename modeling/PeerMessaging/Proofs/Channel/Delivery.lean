import PeerMessaging.Proofs.Channel.Accounts

/-!
# Nothing is lost in a pipeline

What handlers ask for while they are called is put off, and the queue in which it waits is shared
by all operations. So three things have to be told of the journal of every operation. Each thing
that was put off is done in a stage of its own, once, in the order in which it was asked for and
after the walk on which it was asked for; and nothing is left waiting. What is on its way to the
socket grows by the buffers of the writes that came through encoded and by nothing else, and the
listener hears of just these. What nobody kept grows by the item that was read if it came through.
-/

namespace PeerMessaging.Pipeline

variable {W H : Type}

namespace Stage

/-- What was put off in a stage. -/
def asked (s : Stage H) : List Deferred := s.calls.flatMap Call.asked

/-- What a stage leaves that nobody kept. -/
def left (s : Stage H) : List Item :=
  match s.errand with
  | .read _ => s.ending.left
  | _ => []

/-- What a stage puts on its way: the buffer of a write that came through encoded, to where the
item that set out was to go. -/
def sent (s : Stage H) : List Outbound :=
  match s.errand, s.ending with
  | .write item, .through (.encoded buffer) => [⟨buffer, item.destination⟩]
  | _, _ => []

/-- A stage whose cause was in the queue leaves nothing behind. -/
theorem left_deferred (d : Deferred) (cause : Option Deferred) (calls : List Call)
    (ending : Ending) : left (H := H) ⟨cause, d.errand, calls, ending⟩ = [] := by
  cases d <;> rfl

end Stage

variable {hooks : Hooks W H} {p q r : Pipeline W H}

/-! ## Everything in its turn -/

/-- What waits and what is put off in the stages of a journal is done in the stages of the journal:
each once and in this order, and when the turn of something comes it was put off already in an
earlier stage. -/
structure InTurn (waiting : List Deferred) (journal : List (Stage H)) : Prop where
  causes : journal.filterMap Stage.cause = waiting ++ journal.flatMap Stage.asked
  timely : ∀ front stage back d, journal = front ++ stage :: back → stage.cause = some d →
    front.filterMap Stage.cause ++ [d] <+: waiting ++ front.flatMap Stage.asked

namespace InTurn

theorem nil : InTurn (H := H) [] [] :=
  ⟨rfl, fun _ _ _ _ split => absurd split.symm (by simp)⟩

/-- A stage that does what waits longest. -/
theorem caused {d : Deferred} {waiting : List Deferred} {stage : Stage H}
    {journal : List (Stage H)} (cause : stage.cause = some d)
    (later : InTurn (waiting ++ stage.asked) journal) :
    InTurn (d :: waiting) (stage :: journal) where
  causes := by
    rw [List.filterMap_cons_some cause, later.causes, List.flatMap_cons, List.append_assoc]
    rfl
  timely front s back d' split cause' := by
    cases front with
    | nil =>
      obtain ⟨rfl, -⟩ := List.cons.inj split
      cases cause.symm.trans cause'
      exact ⟨waiting, by simp⟩
    | cons first front =>
      obtain ⟨rfl, rest⟩ := List.cons.inj split
      have turn := later.timely front s back d' rest cause'
      rw [List.append_assoc] at turn
      rw [List.filterMap_cons_some cause, List.flatMap_cons]
      exact List.cons_prefix_cons.mpr ⟨rfl, turn⟩

/-- A stage that was not put off. -/
theorem own {waiting : List Deferred} {stage : Stage H} {journal : List (Stage H)}
    (cause : stage.cause = none) (later : InTurn (waiting ++ stage.asked) journal) :
    InTurn waiting (stage :: journal) where
  causes := by
    rw [List.filterMap_cons_none cause, later.causes, List.flatMap_cons, List.append_assoc]
  timely front s back d split cause' := by
    cases front with
    | nil =>
      obtain ⟨rfl, -⟩ := List.cons.inj split
      cases cause.symm.trans cause'
    | cons first front =>
      obtain ⟨rfl, rest⟩ := List.cons.inj split
      have turn := later.timely front s back d rest cause'
      rw [List.append_assoc] at turn
      rw [List.filterMap_cons_none cause, List.flatMap_cons]
      exact turn

end InTurn

/-- Working off the queue does what waits in it in its turn, before anything that follows. -/
theorem Drains.inTurn {stages journal : List (Stage H)} (drains : Drains hooks stages p q)
    (later : InTurn [] journal) : InTurn p.queue (stages ++ journal) := by
  induction drains with
  | idle empty =>
    rw [empty]
    exact later
  | next queue performs _ ih =>
    rw [queue]
    rw [performs.queue] at ih
    exact .caused rfl ih

/-- If the queue is empty at first, what is put into it is done in the order in which it was put
there. -/
theorem Accounts.inTurn {errands : List (Errand H)} {journal : List (Stage H)}
    (accounts : Accounts hooks errands journal p q) (idle : p.queue = []) : InTurn [] journal := by
  induction accounts with
  | done => exact .nil
  | next performs drains _ ih =>
    have turn := drains.inTurn (ih drains.queue)
    rw [performs.queue, idle] at turn
    exact .own rfl turn

/-! ## What is sent and what is left -/

/-- What is on its way and what nobody kept grow by what the stages of a journal sent and left. A
listener that writes every buffer down where no handler does anything has written down what was
sent. -/
structure Balanced (hooks : Hooks W H) (journal : List (Stage H)) (p q : Pipeline W H) :
    Prop where
  outbound : q.outbound = p.outbound ++ journal.flatMap Stage.sent
  unhandled : q.unhandled = p.unhandled ++ journal.flatMap Stage.left
  onEncoded : q.onEncoded = p.onEncoded
  heard : ∀ (listen : Gather → W → W) (log : W → List Gather), p.onEncoded = some listen →
    hooks.Spares log → (∀ buffer w, log (listen buffer w) = log w ++ [buffer]) →
    log q.world = log p.world ++ (journal.flatMap Stage.sent).map Outbound.buffer

namespace Balanced

theorem refl (hooks : Hooks W H) (p : Pipeline W H) : Balanced hooks [] p p :=
  ⟨(List.append_nil _).symm, (List.append_nil _).symm, rfl,
    fun _ _ _ _ _ => (List.append_nil _).symm⟩

/-- What balances over two runs balances over the one after the other. -/
theorem trans {first second : List (Stage H)} (before : Balanced hooks first p q)
    (after : Balanced hooks second q r) : Balanced hooks (first ++ second) p r where
  outbound := by rw [after.outbound, before.outbound, List.flatMap_append, List.append_assoc]
  unhandled := by rw [after.unhandled, before.unhandled, List.flatMap_append, List.append_assoc]
  onEncoded := after.onEncoded.trans before.onEncoded
  heard listen log listens spares writes := by
    rw [after.heard listen log (before.onEncoded.trans listens) spares writes,
      before.heard listen log listens spares writes, List.flatMap_append, List.map_append,
      List.append_assoc]

/-- Nothing is sent or left on a walk. -/
theorem of_steady {asked : List Deferred} (steady : Steady hooks asked p q) :
    Balanced hooks [] p q where
  outbound := by rw [steady.outbound, List.flatMap_nil, List.append_nil]
  unhandled := by rw [steady.unhandled, List.flatMap_nil, List.append_nil]
  onEncoded := steady.onEncoded
  heard _ log _ spares _ := by
    rw [steady.world log spares, List.flatMap_nil, List.map_nil, List.append_nil]

/-- A stage of which nothing is sent or left. -/
theorem of_still {stage : Stage H} (sent : stage.sent = []) (left : stage.left = [])
    (outbound : q.outbound = p.outbound) (unhandled : q.unhandled = p.unhandled)
    (onEncoded : q.onEncoded = p.onEncoded) (world : q.world = p.world) :
    Balanced hooks [stage] p q where
  outbound := by rw [List.flatMap_singleton, sent, List.append_nil, outbound]
  unhandled := by rw [List.flatMap_singleton, left, List.append_nil, unhandled]
  onEncoded := onEncoded
  heard _ _ _ _ _ := by
    rw [List.flatMap_singleton, sent, List.map_nil, List.append_nil, world]

end Balanced

/-- Beginning an errand balances without a stage. -/
theorem begun_balanced (hooks : Hooks W H) (p : Pipeline W H) (errand : Errand H) :
    Balanced hooks [] p (p.begun errand) := by
  have refl := Balanced.refl hooks p
  cases errand <;> exact ⟨refl.outbound, refl.unhandled, refl.onEncoded, refl.heard⟩

/-- What an errand sends and leaves at the end of its walk. -/
theorem finished_balanced (hooks : Hooks W H) (p : Pipeline W H) (cause : Option Deferred)
    (errand : Errand H) (calls : List Call) (ending : Ending) :
    Balanced hooks [⟨cause, errand, calls, ending⟩] p (p.finished errand ending) := by
  cases errand with
  | read item =>
    refine ⟨?_, ?_, rfl, fun _ _ _ _ _ => ?_⟩ <;> rw [List.flatMap_singleton]
    · exact (List.append_nil _).symm
    · rfl
    · exact (List.append_nil _).symm
  | write item =>
    cases ending with
    | through last =>
      cases last with
      | encoded buffer =>
        refine ⟨?_, ?_, rfl, fun listen log listens _ writes => ?_⟩ <;>
          rw [List.flatMap_singleton]
        · rfl
        · exact (List.append_nil _).symm
        · rw [finished, emit, listens]
          exact writes buffer p.world
      | _ => exact .of_still rfl rfl rfl rfl rfl rfl
    | _ => exact .of_still rfl rfl rfl rfl rfl rfl
  | _ => exact .of_still rfl rfl rfl rfl rfl rfl

/-- One errand that is done balances as a stage of its own. -/
theorem Performs.balanced {errand : Errand H} {calls : List Call} {ending : Ending}
    (cause : Option Deferred) (performs : Performs hooks errand calls ending p q) :
    Balanced hooks [⟨cause, errand, calls, ending⟩] p q := by
  obtain ⟨m, steady, rfl⟩ := performs.walk
  exact ((begun_balanced hooks p errand).trans (.of_steady steady)).trans
    (finished_balanced hooks m cause errand calls ending)

/-- The stages of a drain balance. -/
theorem Working.balanced {stages : List (Stage H)} (working : Working hooks stages p q) :
    Balanced hooks stages p q := by
  induction working with
  | pause => exact .refl hooks _
  | @next p q _ d _ _ _ _ _ performs _ ih =>
    obtain ⟨outbound, unhandled, onEncoded, heard⟩ := performs.balanced (some d)
    have first : Balanced hooks _ p q := ⟨outbound, unhandled, onEncoded, heard⟩
    exact first.trans ih

/-- The journal of errands that are under way balances. -/
theorem Underway.balanced {errands : List (Errand H)} {journal : List (Stage H)}
    (underway : Underway hooks errands journal p q) : Balanced hooks journal p q := by
  induction underway with
  | pause => exact .refl hooks _
  | amid performs working => exact (performs.balanced none).trans working.balanced
  | next performs drains _ ih =>
    exact (performs.balanced none).trans (drains.working.balanced.trans ih)

theorem Accounts.balanced {errands : List (Errand H)} {journal : List (Stage H)}
    (accounts : Accounts hooks errands journal p q) : Balanced hooks journal p q :=
  accounts.underway.balanced

/-! ## Items that are read -/

/-- The stages of a drain leave nothing behind. -/
theorem Drains.left {stages : List (Stage H)} (drains : Drains hooks stages p q) :
    stages.flatMap Stage.left = [] := by
  induction drains with
  | idle _ => rfl
  | next _ _ _ ih => rw [List.flatMap_cons, ih, Stage.left_deferred, List.append_nil]

/-- Of errands none of which is to read, no item is left. -/
theorem Accounts.left {errands : List (Errand H)} {journal : List (Stage H)}
    (accounts : Accounts hooks errands journal p q)
    (others : ∀ item, .read item ∉ errands) : journal.flatMap Stage.left = [] := by
  induction accounts with
  | done => rfl
  | @next _ _ _ _ errand errands calls ending stages journal _ drains _ ih =>
    have none : Stage.left ⟨none, errand, calls, ending⟩ = [] := by
      cases errand with
      | read item => exact absurd List.mem_cons_self (others item)
      | _ => rfl
    rw [List.flatMap_cons, none, List.flatMap_append, drains.left,
      ih fun item member => others item (List.mem_cons_of_mem _ member)]
    rfl

/-- An item that is read makes its walk first, and what is left over in the end is what its walk
left. -/
theorem Accounts.read {item : Item} {journal : List (Stage H)}
    (accounts : Accounts hooks [.read item] journal p q) :
    ∃ calls ending m, Carried hooks .inward (p.placesFrom 0) item calls ending p m ∧
      journal.head? = some ⟨none, .read item, calls, ending⟩ ∧
      q.unhandled = p.unhandled ++ ending.left := by
  have balanced := accounts.balanced
  cases accounts with
  | next performs drains later =>
    cases later
    cases performs with
    | read walk =>
      refine ⟨_, _, _, walk, rfl, balanced.unhandled.trans ?_⟩
      rw [List.flatMap_cons, List.append_nil, drains.left, List.append_nil]
      rfl

end PeerMessaging.Pipeline

namespace PeerMessaging.Operation

open Pipeline

variable {W H : Type} {hooks : Hooks W H} {p : Pipeline W H}

/-- Only an operation that reads sets out on reading. -/
theorem read_not_mem_errands {o : Operation H} {item : Item} (others : ∀ item, o ≠ .read item) :
    Errand.read item ∉ o.errands p := by
  have changes {β : Type} {check : Except Failure β} {errands : β → List (Errand H)}
      (none : ∀ b, Errand.read item ∉ errands b) : Errand.read item ∉ granted check errands := by
    intro member
    obtain ⟨b, there⟩ := exists_of_mem_granted member
    exact none b there
  cases o with
  | read item => exact absurd rfl (others item)
  | ringTimer id =>
    rw [errands]
    split <;> simp
  | activate => simp [errands]
  | deactivate => simp [errands]
  | raise event => simp [errands]
  | write item => simp [errands]
  | _ => exact changes fun _ => by simp

/-- What an operation does from one pipeline to another is told by a journal, and nothing is lost in
it. Its stages are the walks of the operation's errands and of what was put off. Whatever was put
off is done in its turn, and nothing is left waiting. What is on its way and what nobody kept grow
by what the stages sent and left. An item that is read is carried over all handlers from the head
before anything else, and it is left over once if it came through; no other operation leaves
anything over. -/
structure Conserves (hooks : Hooks W H) (o : Operation H) (journal : List (Stage H))
    (p q : Pipeline W H) : Prop where
  accounts : Accounts hooks (o.errands p) journal p q
  inTurn : InTurn [] journal
  drained : q.queue = []
  balanced : Balanced hooks journal p q
  read : ∀ item, o = .read item → ∃ calls ending m,
    Carried hooks .inward (p.placesFrom 0) item calls ending p m ∧
      journal.head? = some ⟨none, .read item, calls, ending⟩ ∧
      q.unhandled = p.unhandled ++ ending.left
  others : (∀ item, o ≠ .read item) → q.unhandled = p.unhandled

/-- **Nothing is lost, doubled or put out of order**: in every state that a pipeline can reach, an
operation that gives a result has a journal that `Conserves` the items and events that were put into
the queue, read and written. -/
theorem apply_conserves {past : List (Entry H)} {q : Pipeline W H} {o : Operation H} {bound : Nat}
    {result : Except Failure Unit} (history : History hooks past p)
    (applied : o.apply hooks bound p = some (result, q)) :
    ∃ journal, Conserves hooks o journal p q := by
  obtain ⟨journal, accounts⟩ := apply_accounts applied
  refine ⟨journal, {
    accounts := accounts
    inTurn := accounts.inTurn history.idle
    drained := accounts.queue history.idle
    balanced := accounts.balanced
    read := ?_
    others := fun others => ?_ }⟩
  · rintro item rfl
    exact accounts.read
  · rw [accounts.balanced.unhandled, accounts.left fun _ => read_not_mem_errands others,
      List.append_nil]

/-- Handlers that send an empty buffer for every item that they read and tell those behind them. -/
def echoing : Hooks (List Gather) Unit where
  role _ := .duplex
  signal _ _ h w := .still h w (.ok ())
  read item _ h w := ⟨h, w, [.write (.encoded .empty), .raise .allIdle], .ok (some item)⟩
  write item _ h w := .still h w (.ok item)
  caught _ _ h w := .still h w ()
  fresh h := h

/-- A channel without handlers, whose listener writes down every buffer. -/
def silence : Pipeline (List Gather) Unit where
  channel := { here := ⟨.unspecified4, 0, 0⟩ }
  world := []
  onEncoded := some fun buffer w => w ++ [buffer]

/-- The channel with one handler. -/
def echo : Pipeline (List Gather) Unit :=
  { silence with entries := [⟨0, "echo", ()⟩], nextId := 1 }

/-- The channel after an item was read. -/
def echoed : Pipeline (List Gather) Unit :=
  { echo with
    world := [.empty]
    outbound := [⟨.empty, none⟩]
    unhandled := [.encoded .empty] }

/-- The channel came about by adding its handler, and reading an item gives a result. -/
theorem apply_conserves_echoed : History echoing [⟨0, "echo", ()⟩] echo ∧
    (read (.encoded .empty)).apply echoing 2 echo = some (.ok (), echoed) ∧
    ∃ journal, Conserves echoing (read (.encoded .empty)) journal echo echoed := by
  have added : (addLast "echo" ()).apply echoing 0 silence = some (.ok (), echo) := rfl
  have history : History echoing [⟨0, "echo", ()⟩] echo := .operation (.new rfl rfl rfl) added
  have applied : (read (.encoded .empty)).apply echoing 2 echo = some (.ok (), echoed) := rfl
  exact ⟨history, applied, apply_conserves history applied⟩

end PeerMessaging.Operation
