import PeerMessaging.Message.Basic
import PeerMessaging.Text.Quoted

/-!
# Completion of a request

A request is pending until it ends, and it ends once: with a reply, with nothing for a
request that nobody answers, or with an abort. Every later attempt to end it is refused.
Callbacks are numbered; those that wait run in the order of their registration when the
request ends, and one that is registered later runs at once.

Several may hold a request, and what they ask of it is a fixed set of calls.
-/

namespace PeerMessaging

/-- How a request stands. -/
inductive Outcome where
  | pending
  | success (reply : Option Message)
  | failed (abort : Abort)
  deriving DecidableEq

namespace Outcome

/-- Whether the request has not ended yet. -/
def isPending : Outcome → Bool
  | pending => true
  | _ => false

/-- The reply, if the request ended with one. -/
def reply? : Outcome → Option Message
  | success reply => reply
  | _ => none

/-- The abort, if the request ended with one. -/
def abort? : Outcome → Option Abort
  | failed abort => some abort
  | _ => none

/-- What those who wait are given: the reply or the abort, and nothing as long as they wait. -/
def result? : Outcome → Option (Except Abort (Option Message))
  | pending => none
  | success reply => some (.ok reply)
  | failed abort => some (.error abort)

/-- The outcome for inspection. -/
def record : Outcome → String
  | pending => "Pending"
  | success reply => Text.taggedText "Success" (Text.optionText (reply.map Message.record))
  | failed abort => Text.taggedText "Failed" (Text.recordText "PeerException"
      [("cause", abort.cause.name), ("message", Text.quote abort.message)])

end Outcome

/-- A request with its outcome, the callbacks that wait for it, and those that ran, each
with the outcome that it saw. -/
structure Completion where
  request : Message
  outcome : Outcome := .pending
  waiting : List Nat := []
  ran : List (Nat × Outcome) := []
  deriving DecidableEq

namespace Completion

/-- Whether the request has ended. -/
def isCompleted (c : Completion) : Bool := !c.outcome.isPending

/-- The reply, once the request ended with one. -/
def response (c : Completion) : Option Message := c.outcome.reply?

/-- The abort, once the request ended with one. -/
def failure (c : Completion) : Option Abort := c.outcome.abort?

/-- Ends the request unless it has ended; says whether it did. -/
def finish (c : Completion) (outcome : Outcome) : Bool × Completion :=
  if c.outcome.isPending then
    (true, { c with
      outcome := outcome
      waiting := []
      ran := c.ran ++ c.waiting.map fun n => (n, outcome) })
  else (false, c)

/-- Ends the request with a reply, or with none. -/
def complete (c : Completion) (reply : Option Message) : Bool × Completion :=
  c.finish (.success reply)

/-- Ends the request with an abort. -/
def fail (c : Completion) (abort : Abort) : Bool × Completion :=
  c.finish (.failed abort)

/-- Ends the request because this side gave it up. -/
def cancel (c : Completion) (reason : String) : Bool × Completion :=
  c.fail (.user reason)

/-- Registers a callback. -/
def onComplete (c : Completion) (callback : Nat) : Completion :=
  if c.outcome.isPending then { c with waiting := c.waiting ++ [callback] }
  else { c with ran := c.ran ++ [(callback, c.outcome)] }

/-- The request and its outcome, for inspection. -/
def record (c : Completion) : String :=
  Text.recordText "FutureResponse"
    [("request", c.request.record), ("state", c.outcome.record)]

end Completion

/-! ## Calls -/

/-- What can be asked of a request by those who hold it. -/
inductive CompletionCall where
  | complete (reply : Option Message)
  | fail (abort : Abort)
  | cancel (reason : String)
  | onComplete (callback : Nat)
  | look
  deriving DecidableEq

/-- What they are told. -/
inductive CompletionAnswer where
  | ended (first : Bool)
  | registered
  | found (outcome : Outcome)
  deriving DecidableEq

namespace Completion

/-- Makes one call: what it is told, and the request afterwards. -/
def perform (c : Completion) : CompletionCall → CompletionAnswer × Completion
  | .complete reply => ((c.complete reply).map .ended id)
  | .fail abort => ((c.fail abort).map .ended id)
  | .cancel reason => ((c.cancel reason).map .ended id)
  | .onComplete callback => (.registered, c.onComplete callback)
  | .look => (.found c.outcome, c)

/-- Makes calls one after another: what they are told, and the request afterwards. -/
def performAll (c : Completion) : List CompletionCall → List CompletionAnswer × Completion
  | [] => ([], c)
  | e :: rest =>
    let step := c.perform e
    let later := step.2.performAll rest
    (step.1 :: later.1, later.2)

end Completion

end PeerMessaging
