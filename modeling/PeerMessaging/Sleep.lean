/-!
# Sleeping

Whoever lets time pass before going on sleeps. No sleep is longer than thirty years: one that
was asked to last longer ends then, so a long wait is made of several sleeps. Time is counted
in milliseconds.
-/

namespace PeerMessaging.Sleep

/-- The longest sleep: thirty years of 365 days each. -/
def longest : Nat := 30 * 365 * 24 * 60 * 60 * 1000

/-- How long a sleep lasts that was asked to last so long. -/
def length (asked : Nat) : Nat := min asked longest

/-- A sleep that is not too long lasts as long as it was asked to. -/
theorem length_eq_self {asked : Nat} (h : asked ≤ longest) : length asked = asked :=
  Nat.min_eq_left h

/-- Nobody sleeps longer than was asked. -/
theorem length_le_asked (asked : Nat) : length asked ≤ asked :=
  Nat.min_le_left asked longest

end PeerMessaging.Sleep
