import PeerMessaging.Bytes

/-!
# Numerals

Numbers as people write them: digits to base ten or another base up to sixteen, read from
the front of a text or as a whole text.
-/

namespace PeerMessaging.Text

/-- The value of a digit to the given base, which is at most sixteen. -/
def digitValue? (base : Nat) (c : Char) : Option Nat :=
  (Bytes.hexValue? c).filter (· < base)

/-- Whether a character is a digit to the given base. -/
def isDigit (base : Nat) (c : Char) : Bool := (digitValue? base c).isSome

/-- The number that digits to the given base spell. -/
def digitsValue (base : Nat) (digits : List Char) : Nat :=
  digits.foldl (fun acc c => acc * base + (digitValue? base c).getD 0) 0

/-- Reads a numeral: at least one digit, at most `most` of them if a limit is given, with a
value below `bound`, and without a leading zero unless `padded` allows it. -/
def readNumeral (base : Nat) (most : Option Nat) (padded : Bool) (bound : Nat)
    (s : List Char) : Option (Nat × List Char) :=
  let digits := s.takeWhile (isDigit base)
  let value := digitsValue base digits
  if digits.isEmpty then none
  else if most.any (· < digits.length) then none
  else if !padded && digits.head? == some '0' && 1 < digits.length then none
  else if bound ≤ value then none
  else some (value, s.drop digits.length)

/-- Reads one given character. -/
def readChar (c : Char) : List Char → Option (List Char)
  | [] => none
  | d :: rest => if d = c then some rest else none

/-- The number below a bound that a whole text spells: decimal digits, perhaps after a plus
sign. -/
def natural? (bound : Nat) (s : String) : Option Nat :=
  let digits := match s.toList with
    | '+' :: rest => rest
    | all => all
  match readNumeral 10 none true bound digits with
  | some (n, []) => some n
  | _ => none

end PeerMessaging.Text
