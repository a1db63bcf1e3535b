import PeerMessaging.Address.Ip
import PeerMessaging.Text.Numeral
import PeerMessaging.Text.Quoted

/-!
# Internet addresses as text

The short family is four decimal octets with dots between them. The long family is eight
hexadecimal groups with colons between them, where the longest run of at least two zero
groups, the first one among equals, shrinks to a double colon; a long address that wraps a
short one shows it in dotted form.

Reading accepts every spelling of an address: any one run of zero groups may be left out,
groups may carry leading zeros up to four digits, and the last two groups may be dotted. An
octet takes no leading zero.
-/

namespace PeerMessaging.IpAddress

open Text (hexNumeral readChar readNumeral)

/-! ## Writing -/

/-- Four decimal octets with dots between them. -/
def dotted (bits : BitVec 32) : String :=
  ".".intercalate ((Bytes.ofNat 4 bits.toNat).map fun b => toString b.toNat)

/-- The start and length of the longest run of zeros, the first one among equals. The state
holds the position, the run in progress and the best run so far. -/
def longestZeroRun (gs : List Nat) : Nat × Nat :=
  let step (s : Nat × (Nat × Nat) × (Nat × Nat)) (g : Nat) :
      Nat × (Nat × Nat) × (Nat × Nat) :=
    let (i, (start, size), best) := s
    if g = 0 then
      let run := if size = 0 then (i, 1) else (start, size + 1)
      (i + 1, run, if best.2 < run.2 then run else best)
    else (i + 1, (0, 0), best)
  (gs.foldl step (0, (0, 0), (0, 0))).2.2

/-- Hexadecimal groups with colons between them. -/
def coloned (gs : List Nat) : String :=
  ":".intercalate (gs.map fun g => String.ofList (hexNumeral g))

/-- The text of a long address. -/
def longText (bits : BitVec 128) : String :=
  let gs := groups bits
  if gs.take 6 = [0, 0, 0, 0, 0, 0xFFFF] then
    "::ffff:" ++ dotted (BitVec.ofNat 32 bits.toNat)
  else
    let (start, size) := longestZeroRun gs
    if 1 < size then coloned (gs.take start) ++ "::" ++ coloned (gs.drop (start + size))
    else coloned gs

/-- The text of an address. -/
def text : IpAddress → String
  | .v4 bits => dotted bits
  | .v6 bits => longText bits

/-! ## Reading -/

/-- Reads the separator before every piece but the first. -/
def readSeparator (c : Char) (index : Nat) (s : List Char) : Option (List Char) :=
  if index = 0 then some s else readChar c s

/-- Reads a short address from the front of a text. -/
def readDotted (s : List Char) : Option (BitVec 32 × List Char) := do
  let octet := readNumeral 10 (some 3) false 256
  let (a, s) ← octet s
  let s ← readChar '.' s
  let (b, s) ← octet s
  let s ← readChar '.' s
  let (c, s) ← octet s
  let s ← readChar '.' s
  let (d, s) ← octet s
  return (BitVec.ofNat 32 (((a * 256 + b) * 256 + c) * 256 + d), s)

/-- Reads up to `room` groups, the first of them at position `index`. A dotted short address
counts as two groups, needs room for two and ends the reading, which the flag reports. -/
def readGroups : Nat → Nat → List Char → List Nat × Bool × List Char
  | 0, _, s => ([], false, s)
  | room + 1, index, s =>
    let embedded := if room = 0 then none else (readSeparator ':' index s).bind readDotted
    match embedded with
    | some (bits, rest) => ([bits.toNat / 2 ^ 16, bits.toNat % 2 ^ 16], true, rest)
    | none =>
      match (readSeparator ':' index s).bind (readNumeral 16 (some 4) true (2 ^ 16)) with
      | some (g, rest) =>
        let (more, dottedEnd, rest) := readGroups room (index + 1) rest
        (g :: more, dottedEnd, rest)
      | none => ([], false, s)

/-- Reads a long address from the front of a text. -/
def readColoned (s : List Char) : Option (IpAddress × List Char) :=
  let (head, dottedEnd, rest) := readGroups 8 0 s
  if head.length = 8 then some (ofGroups head, rest)
  else if dottedEnd then none
  else do
    let rest ← readChar ':' rest
    let rest ← readChar ':' rest
    let (tail, _, rest) := readGroups (7 - head.length) 0 rest
    let gap := List.replicate (8 - head.length - tail.length) 0
    return (ofGroups (head ++ gap ++ tail), rest)

/-- Reads an address of either family from the front of a text. -/
def read (s : List Char) : Option (IpAddress × List Char) :=
  match readDotted s with
  | some (bits, rest) => some (.v4 bits, rest)
  | none => readColoned s

/-- The address that a text spells, if it spells one from its first to its last character. -/
def parse? (s : String) : Option IpAddress :=
  match read s.toList with
  | some (ip, []) => some ip
  | _ => none

end PeerMessaging.IpAddress
