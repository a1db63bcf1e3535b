import PeerMessaging.Request.Completion
import PeerMessaging.Sleep

/-!
# Waiting

Something that will be there after some time is awaited for at most some time, and a limit
of zero means none. What is there by itself at the very limit still counts. A limit may be as
long as it likes, while what comes after a sleep comes when the longest sleep is over at the
latest. Time is counted in milliseconds.

Whoever waits for the end of a request looks at it and then sleeps until a call of somebody
else ends it, so what is waited for is told by the calls that others make meanwhile. An ending
that somebody else gives to a request at the very limit comes too late.
-/

namespace PeerMessaging

/-- A value that will be there after some time. -/
structure Delayed (α : Type) where
  after : Nat
  value : α

namespace Delayed

variable {α : Type}

/-- A value that is there after a sleep. -/
def afterSleep (asked : Nat) (value : α) : Delayed α := ⟨Sleep.length asked, value⟩

/-- Awaits a value: what was obtained, and after how long. -/
def await (d : Delayed α) (limit : Nat) : Except Failure α × Nat :=
  if limit = 0 ∨ d.after ≤ limit then (.ok d.value, d.after) else (.error .timeout, limit)

/-- Awaits an attempt, whose own failure counts like the timeout. -/
def awaitAttempt (d : Delayed (Except Failure α)) (limit : Nat) : Except Failure α × Nat :=
  match d.await limit with
  | (.ok r, elapsed) => (r, elapsed)
  | (.error f, elapsed) => (.error f, elapsed)

end Delayed

namespace Completion

/-- Waits for the end of a request while others make calls, one after another. The one who waits
looks at the request when awake, and else sleeps; the call that ends the request wakes all who
sleep. What the one who waits is told then, and the request at that time; nothing if the wait
is not over after the last call. -/
def waitWhile (awake : Bool) (c : Completion) :
    List CompletionCall → Option (Except Abort (Option Message) × Completion)
  | [] => if awake then c.outcome.result?.map (·, c) else none
  | e :: rest =>
    match if awake then c.outcome.result? else none with
    | some result => some (result, c)
    | none =>
      let (answer, c) := c.perform e
      waitWhile (answer = .ended true) c rest

/-- Waits for the end of a request as long as it takes, as a thread that blocks or as a task. -/
def wait (c : Completion) (calls : List CompletionCall) :
    Option (Except Abort (Option Message) × Completion) :=
  c.waitWhile true calls

/-- The calls that are made before a limit. -/
def before (limit : Nat) (calls : List (Delayed CompletionCall)) : List CompletionCall :=
  (calls.takeWhile fun e => e.after < limit).map Delayed.value

/-- Waits for the end of a request up to a limit. What the one who waits finds then, which is
nothing if the request is still pending, and the request at that time. With a limit of zero
the wait is over at once. -/
def waitTimeout (c : Completion) (limit : Nat) (calls : List (Delayed CompletionCall)) :
    Option (Except Abort (Option Message)) × Completion :=
  match c.wait (before limit calls) with
  | some (result, c) => (some result, c)
  | none =>
    let c := (c.performAll (before limit calls)).2
    (c.outcome.result?, c)

/-- Awaits the end of a request up to a limit, which counts as a failure of its own and leaves
the request as it is; a limit of zero means none. What the one who waits is told, and the request
at that time; nothing if there is no limit and the wait is not over after the last call. -/
def await (c : Completion) (limit : Nat) (calls : List (Delayed CompletionCall)) :
    Option (Except Abort (Option Message) × Completion) :=
  if limit = 0 then c.wait (calls.map Delayed.value)
  else match c.wait (before limit calls) with
    | some told => some told
    | none => some (.error Failure.timeout.toAbort, (c.performAll (before limit calls)).2)

end Completion

end PeerMessaging
