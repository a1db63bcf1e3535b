import PeerMessaging.Bytes

/-!
# The twisted Edwards curve of edwards25519

Points of the curve `-x² + y² = 1 + d x² y²` over the integers modulo `2²⁵⁵ - 19`. A point
is kept in extended coordinates, for which one addition formula serves all points; it
travels as the 255 bits of `y` with the lowest bit of `x` on top, least significant byte
first.
-/

namespace PeerMessaging.Edwards

/-- The prime of the field. -/
def prime : Nat := 2 ^ 255 - 19

/-- The order of the subgroup that the base point generates. -/
def order : Nat := 2 ^ 252 + 27742317777372353535851937790883648493

/-- The sum of two residues. -/
def add (a b : Nat) : Nat := (a + b) % prime

/-- The difference of two residues. -/
def sub (a b : Nat) : Nat := (a + prime - b % prime) % prime

/-- The product of two residues. -/
def mul (a b : Nat) : Nat := a * b % prime

/-- The power of a residue, for exponents of at most 255 bits. -/
def pow (a e : Nat) : Nat :=
  (List.range 255).reverse.foldl
    (fun acc i => if e.testBit i then mul (mul acc acc) a else mul acc acc) 1

/-- The inverse of a residue; zero for zero. -/
def inverse (a : Nat) : Nat := pow a (prime - 2)

/-- The curve coefficient. -/
def d : Nat := mul (prime - 121665) (inverse 121666)

/-- A square root of minus one. -/
def rootOfMinusOne : Nat := pow 2 ((prime - 1) / 4)

/-- The even square root of `u / v`, if there is one. -/
def rootOfRatio? (u v : Nat) : Option Nat :=
  let v3 := mul (mul v v) v
  let v7 := mul (mul v3 v3) v
  let r := mul (mul u v3) (pow (mul u v7) ((prime - 5) / 8))
  let check := mul v (mul r r)
  let even (x : Nat) : Nat := if x % 2 = 1 then sub 0 x else x
  if check = u % prime then some (even r)
  else if check = sub 0 u then some (even (mul r rootOfMinusOne))
  else none

/-- A point in extended coordinates: `x = X / Z`, `y = Y / Z` and `T = x y Z`. -/
structure Point where
  X : Nat
  Y : Nat
  Z : Nat
  T : Nat

namespace Point

/-- The neutral point. -/
def zero : Point := ⟨0, 1, 1, 0⟩

/-- The point with the given coordinates. -/
def ofAffine (x y : Nat) : Point := ⟨x, y, 1, mul x y⟩

/-- The sum of two points. -/
def add (p q : Point) : Point :=
  let a := mul (sub p.Y p.X) (sub q.Y q.X)
  let b := mul (Edwards.add p.Y p.X) (Edwards.add q.Y q.X)
  let c := mul (mul (mul 2 d) p.T) q.T
  let z := mul (mul 2 p.Z) q.Z
  let e := sub b a
  let f := sub z c
  let g := Edwards.add z c
  let h := Edwards.add b a
  ⟨mul e f, mul g h, mul f g, mul e h⟩

/-- The point reflected to the other sign of `x`. -/
def neg (p : Point) : Point := ⟨sub 0 p.X, p.Y, p.Z, sub 0 p.T⟩

/-- The point added to itself `n` times over, for `n` below `2²⁵⁶`. -/
def times (n : Nat) (p : Point) : Point :=
  (List.range 256).reverse.foldl
    (fun acc i => if n.testBit i then add (add acc acc) p else add acc acc) zero

/-- The 32 bytes of a point. -/
def compress (p : Point) : Bytes :=
  let z := inverse p.Z
  let x := mul p.X z
  let y := mul p.Y z
  (Bytes.ofNat 32 (y + x % 2 * 2 ^ 255)).reverse

/-- The point with the given 32 bytes, if its `y` belongs to the curve. A `y` beyond the
prime stands for its residue, and the sign of a zero `x` does not matter. -/
def decompress? (b : Bytes) : Option Point :=
  let n := Bytes.toNat b.reverse
  let y := n % 2 ^ 255 % prime
  let y2 := mul y y
  (rootOfRatio? (sub y2 1) (Edwards.add (mul d y2) 1)).map fun x =>
    ofAffine (if n / 2 ^ 255 % 2 = 1 then sub 0 x else x) y

/-- The base point: `y` is four fifths and `x` is even. -/
def base : Point :=
  let y := mul 4 (inverse 5)
  let y2 := mul y y
  ofAffine ((rootOfRatio? (sub y2 1) (Edwards.add (mul d y2) 1)).getD 0) y

end Point

end PeerMessaging.Edwards
