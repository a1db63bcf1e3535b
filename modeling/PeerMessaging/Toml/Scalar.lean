import PeerMessaging.Toml.Quoted
import PeerMessaging.Toml.Value

/-!
# TOML numbers, truth values and moments

Digits may have single underscores between them. A decimal integer has no leading zero and
fits 64 bits with a sign; to the bases sixteen, eight and two it has no sign. A number with a
fraction or an exponent must not be too large to be represented. A moment is a date, a time
or both, perhaps with an offset, and has to exist in the calendar.

A reader that stops early is as good as one that refuses, because nothing that may follow a
value begins with what it left.
-/

namespace PeerMessaging.Toml

/-! ## Digits -/

/-- Reads further digits, each perhaps after an underscore. -/
def moreDigits (base : Nat) : List Char → List Char × List Char
  | '_' :: c :: rest =>
    if Text.isDigit base c then
      let (cs, rest) := moreDigits base rest
      (c :: cs, rest)
    else ([], '_' :: c :: rest)
  | c :: rest =>
    if Text.isDigit base c then
      let (cs, rest) := moreDigits base rest
      (c :: cs, rest)
    else ([], c :: rest)
  | [] => ([], [])

/-- Reads digits, at least one; underscores are left out. -/
def digits? (base : Nat) : Scan (List Char)
  | c :: rest =>
    if Text.isDigit base c then
      let (cs, rest) := moreDigits base rest
      some (c :: cs, rest)
    else none
  | [] => none

/-- Reads a sign if there is one; whether it is a minus. -/
def sign : List Char → Bool × List Char
  | '-' :: rest => (true, rest)
  | '+' :: rest => (false, rest)
  | s => (false, s)

/-- Reads the digits of a decimal integer: a single zero, or digits that do not begin with
one. -/
def wholeDigits? : Scan (List Char)
  | '0' :: rest => some (['0'], rest)
  | s => digits? 10 s

/-! ## Integers -/

/-- The least integer that is too large. -/
def integerBound : Nat := 2 ^ 63

/-- Reads the digits of an integer without a sign. -/
def unsigned? (base : Nat) : Scan Value := fun s =>
  match digits? base s with
  | none => none
  | some (ds, rest) =>
    let n := Text.digitsValue base ds
    if n < integerBound then some (.integer n, rest) else none

/-- Reads a decimal integer. -/
def decimal? : Scan Value := fun s =>
  let (minus, s) := sign s
  match wholeDigits? s with
  | none => none
  | some (ds, rest) =>
    let n := Text.digitsValue 10 ds
    if minus then if n ≤ integerBound then some (.integer (-n), rest) else none
    else if n < integerBound then some (.integer n, rest) else none

/-- Reads an integer. -/
def integer? : Scan Value
  | '0' :: 'x' :: rest => unsigned? 16 rest
  | '0' :: 'o' :: rest => unsigned? 8 rest
  | '0' :: 'b' :: rest => unsigned? 2 rest
  | s => decimal? s

/-! ## Numbers with a fraction or an exponent -/

/-- The part of a text that was read, given what was left of it. -/
def consumed (s rest : List Char) : String := String.ofList (s.take (s.length - rest.length))

/-- Reads a fraction if there is one; its digits. -/
def fraction : List Char → List Char × List Char
  | '.' :: rest =>
    match digits? 10 rest with
    | some (ds, rest) => (ds, rest)
    | none => ([], '.' :: rest)
  | s => ([], s)

/-- Reads an exponent if there is one. -/
def exponent (s : List Char) : Option Int × List Char :=
  match s with
  | c :: rest =>
    if c = 'e' ∨ c = 'E' then
      let (minus, rest) := sign rest
      match digits? 10 rest with
      | some (ds, rest) =>
        let n : Int := Text.digitsValue 10 ds
        (some (if minus then -n else n), rest)
      | none => (none, s)
    else (none, s)
  | [] => (none, s)

/-- The least number that rounds to no finite number of 53 bits. -/
def floatBound : Nat := 2 ^ 1024 - 2 ^ 970

/-- Whether the digits, times ten to the power of `e`, are too large to be represented. Powers
far from the bound are not worked out. -/
def tooLarge (digits : List Char) (e : Int) : Bool :=
  let significant := digits.dropWhile (· == '0')
  let m := Text.digitsValue 10 significant
  let magnitude : Int := significant.length + e
  if significant.isEmpty ∨ magnitude < 300 then false
  else if 310 < magnitude then true
  else if 0 ≤ e then decide (floatBound ≤ m * 10 ^ e.toNat)
  else decide (floatBound * 10 ^ (-e).toNat ≤ m)

/-- Reads infinity or the absence of a number. -/
def special? : Scan Value := fun s =>
  match (sign s).2 with
  | 'i' :: 'n' :: 'f' :: rest => some (.float (consumed s rest), rest)
  | 'n' :: 'a' :: 'n' :: rest => some (.float (consumed s rest), rest)
  | _ => none

/-- Reads a number with a fraction or an exponent. -/
def float? : Scan Value := fun s =>
  let (minus, body) := sign s
  match wholeDigits? body with
  | none => special? s
  | some (ds, afterWhole) =>
    let (fs, afterFraction) := fraction afterWhole
    let (e, rest) := exponent afterFraction
    if fs.isEmpty && e.isNone then none
    else if !minus && tooLarge (ds ++ fs) (e.getD 0 - fs.length) then none
    else some (.float (consumed s rest), rest)

/-! ## Moments -/

/-- Reads exactly so many decimal digits with a value between two bounds. -/
def fixedDigits? (count low high : Nat) : Scan Nat := fun s =>
  let ds := s.take count
  let n := Text.digitsValue 10 ds
  if ds.length = count ∧ ds.all (Text.isDigit 10) ∧ low ≤ n ∧ n ≤ high then
    some (n, s.drop count)
  else none

/-- The number of days of a month. -/
def daysIn (year month : Nat) : Nat :=
  if month = 2 then if year % 4 = 0 ∧ (year % 100 ≠ 0 ∨ year % 400 = 0) then 29 else 28
  else if month = 4 ∨ month = 6 ∨ month = 9 ∨ month = 11 then 30
  else 31

/-- Takes a date off the front. -/
def date? (s : List Char) : Option (List Char) := do
  let (year, s) ← fixedDigits? 4 0 9999 s
  let s ← Text.readChar '-' s
  let (month, s) ← fixedDigits? 2 1 12 s
  let s ← Text.readChar '-' s
  let (_, s) ← fixedDigits? 2 1 (daysIn year month) s
  return s

/-- Takes the fraction of a second off the front, if there is one. -/
def skipSecondFraction : List Char → List Char
  | '.' :: c :: rest =>
    if Text.isDigit 10 c then rest.dropWhile (Text.isDigit 10) else '.' :: c :: rest
  | s => s

/-- Takes a time off the front. -/
def time? (s : List Char) : Option (List Char) := do
  let (_, s) ← fixedDigits? 2 0 23 s
  let s ← Text.readChar ':' s
  let (_, s) ← fixedDigits? 2 0 59 s
  let s ← Text.readChar ':' s
  let (_, s) ← fixedDigits? 2 0 60 s
  return skipSecondFraction s

/-- Takes the offset of a time off the front, if there is one. -/
def skipOffset (s : List Char) : List Char :=
  match s with
  | c :: rest =>
    if c = 'Z' ∨ c = 'z' then rest
    else if c = '+' ∨ c = '-' then
      let after := do
        let (_, r) ← fixedDigits? 2 0 23 rest
        let r ← Text.readChar ':' r
        let (_, r) ← fixedDigits? 2 0 59 r
        return r
      after.getD s
    else s
  | [] => s

/-- Takes a time behind a date off the front, if there is one. -/
def skipTime (s : List Char) : List Char :=
  match s with
  | c :: rest =>
    if c = 'T' ∨ c = 't' ∨ c = ' ' then
      match time? rest with
      | some rest => skipOffset rest
      | none => s
    else s
  | [] => s

/-- Reads a moment. -/
def moment? : Scan Value := fun s =>
  match date? s with
  | some rest =>
    let rest := skipTime rest
    some (.moment (consumed s rest), rest)
  | none => (time? s).map fun rest => (.moment (consumed s rest), rest)

/-! ## Scalars -/

/-- Reads a truth value. -/
def boolean? : Scan Value
  | 't' :: 'r' :: 'u' :: 'e' :: rest => some (.boolean true, rest)
  | 'f' :: 'a' :: 'l' :: 's' :: 'e' :: rest => some (.boolean false, rest)
  | _ => none

/-- Reads a value that holds no others. -/
def scalar? : Scan Value := fun s =>
  (((((readString? s).map fun (t, rest) => (Value.string t, rest)).or (boolean? s)).or
    (moment? s)).or (float? s)).or (integer? s)

end PeerMessaging.Toml
