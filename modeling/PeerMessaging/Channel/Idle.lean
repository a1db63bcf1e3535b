/-!
# Idle detection

A channel is idle when it saw neither a read nor a write for a whole window of time. The
detector does not poll: one timer is set for the window, and when it expires the time since
the last activity tells whether the whole window passed. If so the channel is idle and the
timer is set for another window; otherwise it is set for the rest of this one.

Times and windows are numbers of one unit, whatever it is.
-/

namespace PeerMessaging

/-- The phase of a detector, which only moves forward. -/
inductive IdlePhase where
  | uninitialized
  | initialized
  | destroyed
  deriving DecidableEq

namespace IdlePhase

/-- The name of the phase. -/
def name : IdlePhase → String
  | uninitialized => "Uninitialized"
  | initialized => "Initialized"
  | destroyed => "Destroyed"

end IdlePhase

/-- What an expired timer showed, and when to look again. -/
structure IdleCheck where
  idle : Bool
  nextDelay : Nat
  deriving DecidableEq

/-- A window with the times of the last read and the last write. -/
structure IdleDetector where
  window : Nat
  phase : IdlePhase := .uninitialized
  lastRead : Nat := 0
  lastWrite : Nat := 0
  deriving DecidableEq

namespace IdleDetector

/-- Starts at a given time and tells the first delay. Nothing happens the second time, and a
window of zero asks for no timer. -/
def start (d : IdleDetector) (now : Nat) : Option Nat × IdleDetector :=
  if d.phase = .uninitialized then
    (if d.window = 0 then none else some d.window,
      { d with phase := .initialized, lastRead := now, lastWrite := now })
  else (none, d)

/-- Takes note of a read. -/
def recordRead (d : IdleDetector) (now : Nat) : IdleDetector := { d with lastRead := now }

/-- Takes note of a write. -/
def recordWrite (d : IdleDetector) (now : Nat) : IdleDetector := { d with lastWrite := now }

/-- The time of the last read or write. -/
def lastActivity (d : IdleDetector) : Nat := max d.lastRead d.lastWrite

/-- Looks at an expired timer; there is nothing to see before the start and after the end. -/
def check (d : IdleDetector) (now : Nat) : Option IdleCheck :=
  if d.phase = .initialized then
    let elapsed := now - d.lastActivity
    if d.window ≤ elapsed then some ⟨true, d.window⟩ else some ⟨false, d.window - elapsed⟩
  else none

/-- Ends detection. -/
def stop (d : IdleDetector) : IdleDetector := { d with phase := .destroyed }

end IdleDetector

end PeerMessaging
