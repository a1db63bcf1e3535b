import PeerMessaging.Bytes
import PeerMessaging.Failure

/-!
# Reading byte strings

A reader takes what it needs from the front of a byte string and gives the value together
with the bytes that it left. It asks for a number of bytes at once and fails, naming both
numbers, when fewer are there.

Main statements: `take` gives back the bytes that stand in front of any rest, and readers in
sequence work on what is left of each other.
-/

namespace PeerMessaging

/-- A way to read a value from the front of a byte string. -/
def Reader (α : Type) : Type := Bytes → Except Failure (α × Bytes)

namespace Reader

variable {α β : Type}

/-- Reads with a reader from a byte string. -/
def run (r : Reader α) (b : Bytes) : Except Failure (α × Bytes) := r b

/-- Gives a value and reads nothing. -/
protected def pure (a : α) : Reader α := fun b => .ok (a, b)

/-- Reads with one reader and then with the reader that its value chooses. -/
protected def bind (r : Reader α) (f : α → Reader β) : Reader β := fun b =>
  match r b with
  | .ok (a, rest) => f a rest
  | .error e => .error e

instance : Monad Reader where
  pure := Reader.pure
  bind := Reader.bind

/-- Reads nothing and fails. -/
def fail (f : Failure) : Reader α := fun _ => .error f

/-- Reads nothing and fails because the packet is malformed. -/
def malformed (fault : DecodeFault) : Reader α := fail (.decode fault)

/-- Goes on with a value that was computed, or fails as the computation did. -/
def ofExcept : Except Failure α → Reader α
  | .ok a => Reader.pure a
  | .error f => fail f

/-- Reads the next `n` bytes. -/
def take (n : Nat) : Reader Bytes := fun b =>
  if b.length < n then .error (.decode (.truncated n b.length))
  else .ok (b.take n, b.drop n)

/-- Reads a number of `n` bytes, most significant first. -/
def word (n : Nat) : Reader Nat := do
  let b ← take n
  return b.toNat

/-- Reads with the same reader `n` times. -/
def times : Nat → Reader α → Reader (List α)
  | 0, _ => pure []
  | n + 1, r => do
    let a ← r
    let rest ← times n r
    return a :: rest

@[simp] theorem run_pure (a : α) (b : Bytes) : (pure a : Reader α).run b = .ok (a, b) := rfl

@[simp] theorem run_bind (r : Reader α) (f : α → Reader β) (b : Bytes) :
    (r >>= f).run b = match r.run b with
      | .ok (a, rest) => (f a).run rest
      | .error e => .error e := rfl

@[simp] theorem run_fail (f : Failure) (b : Bytes) : (fail f : Reader α).run b = .error f := rfl

theorem run_take_append {front : Bytes} {n : Nat} (h : front.length = n) (rest : Bytes) :
    (take n).run (front ++ rest) = .ok (front, rest) := by
  subst h
  simp [run, take]

end Reader

end PeerMessaging
