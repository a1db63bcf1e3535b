/-!
# Byte strings

A byte string is a list of bytes. Numbers travel in it most significant byte first, in a
fixed number of bytes, and people read it as two lowercase hexadecimal digits per byte.

Main statements: a number written in `n` bytes takes exactly `n` bytes, reading it back
gives the number modulo `256 ^ n`, and writing what was read gives the same bytes.
-/

-- A power of numbers is the core one, whichever monoids a later module brings into scope.
attribute [instance (20000), default_instance 20000] instPowNat

namespace PeerMessaging

/-- A finite string of bytes. -/
abbrev Bytes := List UInt8

namespace Bytes

/-- The `n` low-order bytes of `v`, most significant first. -/
def ofNat : Nat → Nat → Bytes
  | 0, _ => []
  | n + 1, v => UInt8.ofNat (v / 256 ^ n) :: ofNat n v

/-- The number whose digits to base 256 are the bytes, most significant first. -/
def toNat : Bytes → Nat
  | [] => 0
  | b :: rest => b.toNat * 256 ^ rest.length + toNat rest

@[simp] theorem length_ofNat (n v : Nat) : (ofNat n v).length = n := by
  induction n with
  | zero => rfl
  | succ n ih => simp [ofNat, ih]

/-- Written in `n` bytes, a number comes back modulo `256 ^ n`. -/
theorem toNat_ofNat (n v : Nat) : toNat (ofNat n v) = v % 256 ^ n := by
  induction n with
  | zero => simp [ofNat, toNat, Nat.mod_one]
  | succ n ih =>
    rw [ofNat, toNat, length_ofNat, ih, Nat.pow_succ, Nat.mod_mul]
    simp only [UInt8.toNat_ofNat']
    rw [Nat.mul_comm (256 ^ n), Nat.add_comm]

/-- A number that fits into `n` bytes comes back from them. -/
theorem toNat_ofNat_of_lt {n v : Nat} (h : v < 256 ^ n) : toNat (ofNat n v) = v := by
  rw [toNat_ofNat, Nat.mod_eq_of_lt h]

/-- `n` bytes stand for a number below `256 ^ n`. -/
theorem toNat_lt (b : Bytes) : toNat b < 256 ^ b.length := by
  induction b with
  | nil => simp [toNat]
  | cons x rest ih =>
    have hx : x.toNat < 256 := x.toNat_lt
    rw [toNat, List.length_cons, Nat.pow_succ]
    have : (x.toNat + 1) * 256 ^ rest.length ≤ 256 * 256 ^ rest.length :=
      Nat.mul_le_mul_right _ hx
    rw [Nat.add_mul] at this
    omega

/-- Only the low-order part of a number is written. -/
theorem ofNat_add_mul (n v k : Nat) : ofNat n (v + k * 256 ^ n) = ofNat n v := by
  induction n generalizing k with
  | zero => rfl
  | succ n ih =>
    have hp : 0 < 256 ^ n := Nat.pow_pos (by omega)
    have split : v + k * 256 ^ (n + 1) = v + (k * 256) * 256 ^ n := by
      rw [Nat.pow_succ, Nat.mul_assoc, Nat.mul_comm 256]
    rw [split]
    simp only [ofNat]
    rw [ih, Nat.add_mul_div_right _ _ hp]
    congr 1
    apply UInt8.toNat_inj.1
    simp only [UInt8.toNat_ofNat']
    omega

/-- Bytes come back from the number that they stand for and their length. -/
theorem ofNat_toNat (b : Bytes) : ofNat b.length (toNat b) = b := by
  induction b with
  | nil => rfl
  | cons x rest ih =>
    have hp : 0 < 256 ^ rest.length := Nat.pow_pos (by omega)
    rw [List.length_cons, ofNat, toNat]
    congr 1
    · rw [Nat.add_comm, Nat.add_mul_div_right _ _ hp, Nat.div_eq_of_lt (toNat_lt rest)]
      simp
    · rw [Nat.add_comm, ofNat_add_mul, ih]

/-- The lowercase hexadecimal digit of a number below sixteen. -/
def hexDigit (n : Nat) : Char :=
  (['0', '1', '2', '3', '4', '5', '6', '7', '8', '9', 'a', 'b', 'c', 'd', 'e', 'f'][n]?).getD '0'

/-- Two lowercase hexadecimal digits per byte, in order. -/
def toHex (b : Bytes) : String :=
  String.ofList (b.flatMap fun x => [hexDigit (x.toNat / 16), hexDigit (x.toNat % 16)])

/-- The value of a hexadecimal digit, of either case. -/
def hexValue? (c : Char) : Option Nat :=
  if '0' ≤ c ∧ c ≤ '9' then some (c.toNat - '0'.toNat)
  else if 'a' ≤ c ∧ c ≤ 'f' then some (c.toNat - 'a'.toNat + 10)
  else if 'A' ≤ c ∧ c ≤ 'F' then some (c.toNat - 'A'.toNat + 10)
  else none

/-- Reads pairs of hexadecimal digits; a lone or foreign character makes it fail. -/
def ofHexDigits? : List Char → Option Bytes
  | [] => some []
  | [_] => none
  | hi :: lo :: rest => do
    let h ← hexValue? hi
    let l ← hexValue? lo
    let tail ← ofHexDigits? rest
    return UInt8.ofNat (16 * h + l) :: tail

/-- Reads a byte string written as two hexadecimal digits per byte. -/
def ofHex? (s : String) : Option Bytes :=
  ofHexDigits? s.toList

/-- The bytes of a text in UTF-8. -/
def ofText (s : String) : Bytes :=
  s.toUTF8.toList

/-- The text that the bytes spell in UTF-8, if they spell one. -/
def toText? (b : Bytes) : Option String :=
  String.fromUTF8? (ByteArray.mk b.toArray)

end Bytes

end PeerMessaging
