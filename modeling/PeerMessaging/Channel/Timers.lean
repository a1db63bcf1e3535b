import PeerMessaging.Sleep

/-!
# Timers of a channel

Each handler of a channel may have one timer, known by the number of the handler. A timer
that is set anew forgets its earlier deadline. Where nobody listens no timer is ever set or
rung; where no clock runs a timer is never set, but one can still be rung by hand. A timer
sleeps until it rings, so one that was set beyond the longest sleep rings at its end.

Time passes only when it is told to. What rings waits in a queue: what was rung by hand in
its order, and the timers that are due when time passes, the earliest deadline first.
-/

namespace PeerMessaging

/-- A timer that is set. -/
structure Alarm where
  handler : Nat
  deadline : Nat
  deriving DecidableEq

/-- The timers of one channel. -/
structure Timers where
  listening : Bool := false
  running : Bool := true
  now : Nat := 0
  armed : List Alarm := []
  rung : List Nat := []
  deriving DecidableEq

namespace Timers

/-- Takes a handler's timer back. -/
def disarm (t : Timers) (handler : Nat) : Timers :=
  { t with armed := t.armed.filter fun a => a.handler ≠ handler }

/-- Sets a handler's timer. -/
def arm (t : Timers) (handler delay : Nat) : Timers :=
  if t.listening && t.running then
    { t with armed := (t.disarm handler).armed ++ [⟨handler, t.now + Sleep.length delay⟩] }
  else t

/-- Rings a handler's timer at once. -/
def ring (t : Timers) (handler : Nat) : Timers :=
  if t.listening then { t with rung := t.rung ++ [handler] } else t

/-- Lets time pass: the timers that are due ring behind those that rang already. -/
def advance (t : Timers) (time : Nat) : Timers :=
  let now := t.now + time
  let due := t.armed.filter fun a => a.deadline ≤ now
  let inOrder := due.mergeSort fun a b => a.deadline ≤ b.deadline
  { t with
    now := now
    armed := t.armed.filter fun a => now < a.deadline
    rung := t.rung ++ inOrder.map Alarm.handler }

end Timers

end PeerMessaging
