/-!
# Durations

A span of time in whole nanoseconds, seen as whole seconds and whole milliseconds, both
rounded down. Its text uses the largest unit that fits and as many decimals as it needs.
-/

namespace PeerMessaging

/-- A span of time. -/
structure Duration where
  nanos : Nat
  deriving DecidableEq

namespace Duration

/-- The span of so many milliseconds. -/
def ofMillis (n : Nat) : Duration := ⟨n * 1000000⟩

/-- The span of so many seconds. -/
def ofSeconds (n : Nat) : Duration := ⟨n * 1000000000⟩

/-- No time at all. -/
def isZero (d : Duration) : Bool := d.nanos == 0

/-- Whole milliseconds. -/
def millis (d : Duration) : Nat := d.nanos / 1000000

/-- Whole seconds. -/
def seconds (d : Duration) : Nat := d.nanos / 1000000000

/-- A decimal number with `places` digits after the point, less the zeros at its end. -/
def decimalText (places whole fraction : Nat) : String :=
  let digits := (toString fraction).toList
  let padded := List.replicate (places - digits.length) '0' ++ digits
  let kept := (padded.reverse.dropWhile (· == '0')).reverse
  if fraction = 0 ∨ kept.isEmpty then toString whole
  else toString whole ++ "." ++ String.ofList kept

/-- The span in its largest unit. -/
def text (d : Duration) : String :=
  let n := d.nanos
  if 1000000000 ≤ n then decimalText 9 (n / 1000000000) (n % 1000000000) ++ "s"
  else if 1000000 ≤ n then decimalText 6 (n / 1000000) (n % 1000000) ++ "ms"
  else if 1000 ≤ n then decimalText 3 (n / 1000) (n % 1000) ++ "µs"
  else toString n ++ "ns"

end Duration

end PeerMessaging
