import PeerMessaging.Channel.Standard
import PeerMessaging.Proofs.Request.Reception
import PeerMessaging.Signature.Ed25519

/-!
# Runs of a request

Much can happen to the handler of a request, in any order: a message is handed to it, it is told
to give up, and its channel reads, fails, closes or falls idle. An event is handled by the
functions of the correlator; in a channel it is handled by the hooks, which find the request by
its number and let the listeners hear what there is to tell. A whole run in a channel is a run of
the correlator: the request, the counters and what the listeners hear are those of the correlator.
-/

namespace PeerMessaging

/-- What can happen to the handler of a request. The last four come from its channel. -/
inductive RequestEvent where
  | arrived (reply : Option Message)
  | aborted (abort : Abort)
  | read (context : Context) (item : Item)
  | caught (context : Context) (failure : Failure)
  | closed (context : Context)
  | idle (context : Context)

namespace RequestEvent

/-- The message that the event brings. -/
def message? : RequestEvent → Option Message
  | arrived reply => reply
  | read _ (.message m) => some m
  | _ => none

/-- The abort that the event asks for. -/
def abort? : RequestEvent → Option Abort
  | aborted abort => some abort
  | caught _ failure => some failure.toAbort
  | closed _ => some ⟨.peerError, "Connection closed"⟩
  | idle _ => some ⟨.timeout, "channel idle, no reply in time"⟩
  | _ => none

end RequestEvent

namespace Correlator

/-- Takes in an event. A request that is read is passed on, and so is what is no message. -/
def handle (c : Correlator) : RequestEvent → Correlator
  | .arrived reply => (c.receive reply).2
  | .aborted abort => c.abort abort
  | .read _ (.message m) => if m.isRequest then c else (c.receive (some m)).2
  | .read _ _ => c
  | .caught _ failure => c.channelFailed failure
  | .closed _ => c.channelClosed
  | .idle _ => c.channelIdle

/-- Takes in events in order. -/
def run (c : Correlator) : List RequestEvent → Correlator
  | [] => c
  | e :: rest => (c.handle e).run rest

theorem run_append (before after : List RequestEvent) :
    ∀ c : Correlator, c.run (before ++ after) = (c.run before).run after := by
  induction before with
  | nil => intro c; rfl
  | cons e before ih => intro c; exact ih (c.handle e)

theorem run_concat (c : Correlator) (before : List RequestEvent) (e : RequestEvent) :
    c.run (before ++ [e]) = (c.run before).handle e :=
  run_append before [e] c

/-- All that an event can do to a request. -/
inductive Handling (c : Correlator) (e : RequestEvent) : Correlator → Prop
  | nothing (silent : e = .arrived none) : Handling c e (c.succeed none)
  | abort (a : Abort) (asked : e.abort? = some a) : Handling c e (c.abort a)
  | refused (m : Message) (brought : e.message? = some m) (answers : m.isRequest = false)
      (misfit : ¬ Fits c.request m) (text : String) : Handling c e (c.abort (.peer text))
  | part (m : Message) (brought : e.message? = some m) (fits : Fits c.request m)
      (more : m.streaming = true) : Handling c e (c.reportFound (refreshed m))
  | whole (m : Message) (brought : e.message? = some m) (fits : Fits c.request m)
      (last : m.streaming = false) :
      Handling c e ((c.reportFound (refreshed m)).succeed (some (refreshed m)))
  | passed (quiet : e ≠ .arrived none) (calm : e.abort? = none)
      (asks : ∀ m, e.message? = some m → m.isRequest = true) : Handling c e c

/-- An event brings a message or asks for an abort, not both. -/
theorem abort?_eq_none {e : RequestEvent} {m : Message} (brought : e.message? = some m) :
    e.abort? = none := by
  cases e with
  | arrived reply => rfl
  | read context item => rfl
  | _ => exact nomatch brought

/-- A message does the same whether it is handed over or read. -/
theorem handling_of_message (c : Correlator) {e : RequestEvent} {m : Message}
    (brought : e.message? = some m) (calm : e.abort? = none) :
    Handling c e (c.receive (some m)).2 := by
  generalize received : c.receive (some m) = step
  have known := reception c m
  rw [received] at known
  cases known with
  | request asks =>
      refine .passed ?_ calm ?_
      · rintro rfl
        exact nomatch brought
      · intro m' brought'
        rw [brought] at brought'
        obtain rfl := Option.some.inj brought'
        exact asks
  | refused answers misfit text => exact .refused m brought answers misfit text
  | part fits more => exact .part m brought fits more
  | whole fits last => exact .whole m brought fits last

/-- An event without a message or an abort changes nothing. -/
theorem handling_self (c : Correlator) {e : RequestEvent} (quiet : e ≠ .arrived none)
    (calm : e.abort? = none) (silent : e.message? = none) : Handling c e c := by
  refine .passed quiet calm fun m brought => ?_
  rw [silent] at brought
  exact nomatch brought

/-- What `handle` does with an event is one of the cases of `Handling`. -/
theorem handling (c : Correlator) (e : RequestEvent) : Handling c e (c.handle e) := by
  cases e with
  | arrived reply =>
      cases reply with
      | none => exact .nothing rfl
      | some m => exact handling_of_message c rfl rfl
  | aborted abort => exact .abort abort rfl
  | read context item =>
      cases item with
      | message m =>
          rw [handle]
          by_cases asks : m.isRequest = true
          · rw [if_pos asks]
            refine .passed nofun rfl ?_
            rintro m' brought
            obtain rfl := Option.some.inj brought
            exact asks
          · rw [if_neg asks]
            exact handling_of_message c rfl rfl
      | packet bytes sender recipient udp => exact handling_self c nofun rfl rfl
      | encoded buffer => exact handling_self c nofun rfl rfl
  | caught context failure => exact .abort failure.toAbort rfl
  | closed context =>
      show Handling c (.closed context) c.channelClosed
      rw [channelClosed]
      exact .abort _ rfl
  | idle context =>
      show Handling c (.idle context) c.channelIdle
      rw [channelIdle]
      exact .abort _ rfl

/-- Events change neither the request nor the listeners. -/
theorem Handling.akin {c c' : Correlator} {e : RequestEvent} (h : Handling c e c') :
    Akin c c' := by
  cases h with
  | nothing silent => exact akin_succeed c none
  | abort a asked => exact akin_abort c a
  | refused m brought answers misfit text => exact akin_abort c _
  | part m brought fits more => exact akin_reportFound c _
  | whole m brought fits last => exact (akin_reportFound c _).trans (akin_succeed _ _)
  | passed quiet calm asks => exact ⟨rfl, rfl⟩

theorem akin_run {events : List RequestEvent} : ∀ c : Correlator, Akin c (c.run events) := by
  induction events with
  | nil => intro c; exact ⟨rfl, rfl⟩
  | cons e events ih => intro c; exact (handling c e).akin.trans (ih (c.handle e))

/-- Once the request has ended it stays as it is, and so do the counters. -/
theorem Handling.of_ended {c c' : Correlator} {e : RequestEvent} (h : Handling c e c')
    (ended : c.outcome ≠ .pending) : c'.completion = c.completion ∧ c'.traffic = c.traffic := by
  cases h with
  | nothing silent => rw [succeed_of_ended ended]; exact ⟨rfl, rfl⟩
  | abort a asked => rw [abort_of_ended ended]; exact ⟨rfl, rfl⟩
  | refused m brought answers misfit text => rw [abort_of_ended ended]; exact ⟨rfl, rfl⟩
  | part m brought fits more => exact ⟨completion_reportFound c _, traffic_reportFound c _⟩
  | whole m brought fits last =>
      rw [← outcome_reportFound c (refreshed m)] at ended
      rw [succeed_of_ended ended]
      exact ⟨completion_reportFound c _, traffic_reportFound c _⟩
  | passed quiet calm asks => exact ⟨rfl, rfl⟩

/-- Events after the end change neither the outcome nor the counters. -/
theorem run_of_ended {events : List RequestEvent} :
    ∀ {c : Correlator}, c.outcome ≠ .pending →
      (c.run events).completion = c.completion ∧ (c.run events).traffic = c.traffic := by
  induction events with
  | nil => intro c _; exact ⟨rfl, rfl⟩
  | cons e events ih =>
      intro c ended
      obtain ⟨completion, traffic⟩ := (handling c e).of_ended ended
      have ended' : (c.handle e).outcome ≠ .pending := by
        rw [outcome, completion]
        exact ended
      obtain ⟨completion', traffic'⟩ := ih ended'
      exact ⟨completion'.trans completion, traffic'.trans traffic⟩

/-- A request that ends in a run ends at one event, and before it is pending. -/
theorem exists_ending {events : List RequestEvent} :
    ∀ {c : Correlator}, c.outcome = .pending → (c.run events).outcome ≠ .pending →
      ∃ before e after, events = before ++ e :: after ∧ (c.run before).outcome = .pending ∧
        ((c.run before).handle e).outcome = (c.run events).outcome := by
  induction events with
  | nil => intro c pending ended; exact absurd pending ended
  | cons e events ih =>
      intro c pending ended
      -- either this event ends the request, or it is still pending for the later ones
      by_cases next : (c.handle e).outcome = .pending
      · obtain ⟨before, e', after, rfl, open_, ends⟩ := ih next ended
        exact ⟨e :: before, e', after, rfl, open_, ends⟩
      · refine ⟨[], e, events, rfl, pending, ?_⟩
        exact (congrArg Completion.outcome (run_of_ended next).1).symm

/-! ## What was heard before -/

/-- The correlator with more notices before its own. -/
def hearing (c : Correlator) (before : List Notice) : Correlator :=
  { c with notices := before ++ c.notices }

theorem abort_hearing (c : Correlator) (before : List Notice) (a : Abort) :
    (c.hearing before).abort a = (c.abort a).hearing before := by
  simp only [abort]
  by_cases ended : c.completion.isCompleted = true
  · rw [if_pos ended, if_pos (show (c.hearing before).completion.isCompleted = true from ended)]
  · rw [if_neg ended, if_neg (show ¬ (c.hearing before).completion.isCompleted = true from ended)]
    cases a.isUserAbort with
    | true => rfl
    | false => simp only [hearing, request, Bool.false_eq_true, if_false, List.append_assoc]

theorem succeed_hearing (c : Correlator) (before : List Notice) (reply : Option Message) :
    (c.hearing before).succeed reply = (c.succeed reply).hearing before := by
  simp only [succeed]
  by_cases ended : c.completion.isCompleted = true
  · rw [if_pos ended, if_pos (show (c.hearing before).completion.isCompleted = true from ended)]
  · rw [if_neg ended, if_neg (show ¬ (c.hearing before).completion.isCompleted = true from ended)]
    rfl

theorem reportFound_hearing (c : Correlator) (before : List Notice) (m : Message) :
    (c.hearing before).reportFound m = (c.reportFound m).hearing before := by
  simp only [reportFound]
  by_cases answer : isAnswer m = true
  · rw [if_pos answer, if_pos answer]
    simp only [hearing, List.append_assoc]
  · rw [if_neg answer, if_neg answer]

theorem receive_hearing (c : Correlator) (before : List Notice) (reply : Option Message) :
    (c.hearing before).receive reply
      = ((c.receive reply).1, (c.receive reply).2.hearing before) := by
  have same : (c.hearing before).request = c.request := rfl
  cases reply with
  | none =>
      simp only [receive]
      rw [succeed_hearing]
  | some m =>
      simp only [receive, same]
      by_cases unknown : m.kind = .unknownId
      · rw [if_pos unknown, if_pos unknown, abort_hearing]
      rw [if_neg unknown, if_neg unknown]
      by_cases failed : m.kind = .exception
      · rw [if_pos failed, if_pos failed, abort_hearing]
      rw [if_neg failed, if_neg failed]
      by_cases asks : m.isRequest = true
      · rw [if_pos asks, if_pos asks]
      rw [if_neg asks, if_neg asks]
      cases refusal c.request m with
      | some reason => exact congrArg (Prod.mk _) (abort_hearing ..)
      | none =>
          dsimp only
          rw [reportFound_hearing, succeed_hearing]
          cases (refreshed m).isDone <;> rfl

/-- What was heard before does not matter. -/
theorem handle_hearing (c : Correlator) (before : List Notice) (e : RequestEvent) :
    (c.hearing before).handle e = (c.handle e).hearing before := by
  cases e with
  | arrived reply => exact congrArg Prod.snd (receive_hearing c before reply)
  | aborted abort => exact abort_hearing c before abort
  | read context item =>
      cases item with
      | message m =>
          show (if m.isRequest then _ else _)
            = (if m.isRequest then _ else _ : Correlator).hearing _
          cases m.isRequest with
          | true => rfl
          | false => exact congrArg Prod.snd (receive_hearing c before (some m))
      | packet bytes sender recipient udp => rfl
      | encoded buffer => rfl
  | caught context failure => exact abort_hearing c before _
  | closed context => exact abort_hearing c before _
  | idle context => exact abort_hearing c before _

end Correlator

/-! ## Runs in a channel -/

namespace Surroundings

variable {U : Type} {services : Services U} {n : Nat}

/-- The surroundings after an event. What comes from the channel goes through the hooks. -/
def handle (services : Services U) (n : Nat) (w : Surroundings U) :
    RequestEvent → Surroundings U
  | .arrived reply => w.correlate services n fun c => (c.receive reply).2
  | .aborted abort => w.correlate services n fun c => c.abort abort
  | .read context item => (StandardHandler.read services item context (.request n) w).world
  | .caught context failure =>
      (StandardHandler.caught services failure context (.request n) w).world
  | .closed context => (StandardHandler.signal services .inactive context (.request n) w).world
  | .idle context =>
      (StandardHandler.signal services (.event .allIdle) context (.request n) w).world

/-- The surroundings after events in order. -/
def run (services : Services U) (n : Nat) (w : Surroundings U) :
    List RequestEvent → Surroundings U
  | [] => w
  | e :: rest => (w.handle services n e).run services n rest

/-- What listeners do with some notices, one after the other. -/
def tell (services : Services U) (notices : List Notice) (u : U) : U :=
  notices.foldl (fun u notice => services.hear notice u) u

/-- A correlator is made of the request and of the listeners and counters of the surroundings, and
no notices. -/
theorem correlator?_eq_some {w : Surroundings U} {c : Correlator}
    (found : w.correlator? n = some c) :
    w.requests[n]? = some c.completion ∧ c.listeners = w.listeners ∧ c.traffic = w.traffic ∧
      c.notices = [] := by
  rw [correlator?, Option.map_eq_some_iff] at found
  obtain ⟨completion, known, rfl⟩ := found
  exact ⟨known, rfl, rfl, rfl⟩

/-- Putting back what was found changes nothing. -/
theorem put_self {w : Surroundings U} {c : Correlator} (found : w.correlator? n = some c) :
    w.put services n c = w := by
  obtain ⟨known, -, traffic, quiet⟩ := correlator?_eq_some found
  obtain ⟨inside, here⟩ := List.getElem?_eq_some_iff.mp known
  rw [put, traffic, quiet, ← here, List.set_getElem_self]
  rfl

/-- What was put is found again, with nothing heard yet. -/
theorem correlator?_put {w : Surroundings U} (known : n < w.requests.length) {c : Correlator}
    (listeners : c.listeners = w.listeners) :
    (w.put services n c).correlator? n = some { c with notices := [] } := by
  rw [correlator?, put]
  dsimp only
  rw [List.getElem?_set_self known, ← listeners]
  rfl

/-- Putting again what was changed since counts, and the listeners hear it in order. -/
theorem put_put (w : Surroundings U) (c c' : Correlator) :
    (w.put services n c).put services n c' = w.put services n (c'.hearing c.notices) := by
  simp only [put, Correlator.hearing, List.set_set, List.foldl_append]

/-- The hooks do what the correlator does. -/
theorem handle_eq {w : Surroundings U} {c : Correlator} (found : w.correlator? n = some c)
    (e : RequestEvent) : w.handle services n e = w.put services n (c.handle e) := by
  have correlated : ∀ f : Correlator → Correlator,
      w.correlate services n f = w.put services n (f c) := by
    intro f
    rw [correlate, found]
  cases e with
  | arrived reply => exact correlated _
  | aborted abort => exact correlated _
  | read context item =>
      cases item with
      | message m =>
          rw [handle, StandardHandler.read, Correlator.handle]
          cases m.isRequest with
          | true => exact (put_self found).symm
          | false =>
              show (w.deliver services n m).2 = w.put services n (c.receive (some m)).2
              rw [deliver, found]
      | packet bytes sender recipient udp => exact (put_self found).symm
      | encoded buffer => exact (put_self found).symm
  | caught context failure => exact correlated _
  | closed context => exact correlated _
  | idle context => exact correlated _

/-- A run in a channel is a run of the correlator. -/
theorem run_put {events : List RequestEvent} :
    ∀ {w : Surroundings U} {c : Correlator}, n < w.requests.length → c.listeners = w.listeners →
      (w.put services n c).run services n events = w.put services n (c.run events) := by
  induction events with
  | nil => intro w c _ _; rfl
  | cons e events ih =>
      intro w c known listeners
      -- what was heard so far is in the surroundings already, so the next step starts silent
      have quiet : ({ c with notices := [] } : Correlator).hearing c.notices = c := by
        rw [Correlator.hearing, List.append_nil]
      rw [run, handle_eq (correlator?_put known listeners), put_put, ← Correlator.handle_hearing,
        quiet]
      exact ih known ((Correlator.handling c e).akin.listeners.trans listeners)

/-- What a run in a channel leaves behind: the request, the counters, and what the listeners made
of the notices. -/
theorem run_eq {w : Surroundings U} {c : Correlator} (found : w.correlator? n = some c)
    (events : List RequestEvent) :
    (w.run services n events).requests[n]? = some (c.run events).completion ∧
      (w.run services n events).traffic = (c.run events).traffic ∧
      (w.run services n events).user = tell services (c.run events).notices w.user := by
  obtain ⟨known, listeners, -, -⟩ := correlator?_eq_some found
  have inside := (List.getElem?_eq_some_iff.mp known).1
  have whole := @run_put U services n events w c inside listeners
  rw [put_self found] at whole
  rw [whole]
  exact ⟨List.getElem?_set_self inside, rfl, rfl⟩

/-- The surroundings of one request to a peer that is not known yet, with two listeners. -/
def lone : Surroundings (List Notice) where
  user := []
  requests := [{ request := {} }]
  listeners := [1, 2]

/-- Services that keep every notice. -/
def recording : Services (List Notice) where
  scheme := Ed25519.scheme
  hear notice heard := heard ++ [notice]

/-- What a handler sees of a channel that is not open. -/
def someContext : Context where
  id := 0
  name := "request"
  channel := { here := PeerAddress.unknown.tcpSocket }
  hasTimers := false
  now := 0

end Surroundings

end PeerMessaging
