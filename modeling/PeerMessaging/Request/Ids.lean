/-!
# Numbers for requests

Requests are numbered by a stream of pseudorandom words. A seed of 64 bits is stretched by a
small generator to a key of eight words; the stream is the key stream of ChaCha with twelve
rounds under that key, with a zero nonce and a block counter of 64 bits from zero on.
-/

namespace PeerMessaging

namespace ChaCha

/-- The sixteen words that are stirred. -/
abbrev State := Vector UInt32 16

/-- The word turned left by `n` places. -/
def rotateLeft (x n : UInt32) : UInt32 := (x <<< n) ||| (x >>> (32 - n))

/-- Stirs the words at four places. -/
def quarterRound (s : State) (a b c d : Fin 16) : State :=
  let s := s.set a (s[a] + s[b])
  let s := s.set d (rotateLeft (s[d] ^^^ s[a]) 16)
  let s := s.set c (s[c] + s[d])
  let s := s.set b (rotateLeft (s[b] ^^^ s[c]) 12)
  let s := s.set a (s[a] + s[b])
  let s := s.set d (rotateLeft (s[d] ^^^ s[a]) 8)
  let s := s.set c (s[c] + s[d])
  s.set b (rotateLeft (s[b] ^^^ s[c]) 7)

/-- One round over the columns and one over the diagonals. -/
def doubleRound (s : State) : State :=
  let s := quarterRound s 0 4 8 12
  let s := quarterRound s 1 5 9 13
  let s := quarterRound s 2 6 10 14
  let s := quarterRound s 3 7 11 15
  let s := quarterRound s 0 5 10 15
  let s := quarterRound s 1 6 11 12
  let s := quarterRound s 2 7 8 13
  quarterRound s 3 4 9 14

/-- The words before the rounds: four constants, the key, the counter and a zero nonce. -/
def initial (key : Vector UInt32 8) (counter : UInt64) : State :=
  #v[0x61707865, 0x3320646e, 0x79622d32, 0x6b206574, key[0], key[1], key[2], key[3], key[4],
    key[5], key[6], key[7], counter.toUInt32, (counter >>> 32).toUInt32, 0, 0]

/-- The block of the key stream with a given number, for so many double rounds. -/
def block (doubleRounds : Nat) (key : Vector UInt32 8) (counter : UInt64) : State :=
  let s := initial key counter
  Vector.zipWith (· + ·) (Nat.repeat doubleRound doubleRounds s) s

end ChaCha

/-- A source of request numbers: the key of its stream and how many numbers were drawn. -/
structure IdSource where
  key : Vector UInt32 8
  drawn : Nat := 0

namespace IdSource

/-- One step of the generator that stretches a seed: the new state and its word. -/
def stretch (state : UInt64) : UInt64 × UInt32 :=
  let state := state * 6364136223846793005 + 11634580027462260723
  let folded := (((state >>> 18) ^^^ state) >>> 27).toUInt32
  let turn := (state >>> 59).toUInt32
  (state, (folded >>> turn) ||| (folded <<< ((32 - turn) % 32)))

/-- The first `n` words that a seed stretches to. -/
def stretched : Nat → UInt64 → List UInt32
  | 0, _ => []
  | n + 1, state => (stretch state).2 :: stretched n (stretch state).1

/-- The source for a seed. -/
def ofSeed (seed : UInt64) : IdSource where
  key := Vector.ofFn fun i => ((stretched 8 seed)[i.val]?).getD 0

/-- The word of the stream at a given place. -/
def word (s : IdSource) (place : Nat) : UInt32 :=
  (ChaCha.block 6 s.key (UInt64.ofNat (place / 16)))[place % 16]

/-- Draws the next number. -/
def next (s : IdSource) : UInt32 × IdSource :=
  (s.word s.drawn, { s with drawn := s.drawn + 1 })

/-- Draws numbers. -/
def take : Nat → IdSource → List UInt32
  | 0, _ => []
  | n + 1, s => s.next.1 :: take n s.next.2

end IdSource

end PeerMessaging
