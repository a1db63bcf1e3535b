import PeerMessaging.Proofs.Gather.Layout

/-!
# A gathered string stands for a flat one

Pieces are added, bytes are read and skipped, in any order, and whenever the pieces become too
many they are merged. None of this can be told from outside. At any time the string is the
concatenation of what was added, its reader stands where the reader of the flat string stands,
and every question gets the answer that the flat string gives, failures included.

The flat string is stated first, with its own operations. A step of the one is a step of the
other, hence so is a run; and what is asked after a run follows from the layout alone.
-/

namespace PeerMessaging.Gather

/-! ## The flat string -/

/-- One thing that is done to a string. -/
inductive Step where
  | add (b : Bytes)
  | read (length : Nat)
  | skip (length : Nat)

/-- The bytes that a step adds. -/
def Step.added : Step → Bytes
  | add b => b
  | read _ => []
  | skip _ => []

/-- A byte string without pieces, with the position of its reader. -/
structure Flat where
  bytes : Bytes := []
  position : Nat := 0

namespace Flat

/-- The bytes of a range that lies inside and whose end is a position. -/
def slice (f : Flat) (index length : Nat) : Except Failure Bytes :=
  if index + length < addressSpace ∧ index + length ≤ f.bytes.length then
    .ok ((f.bytes.drop index).take length)
  else .error (.indexOutOfBounds index f.bytes.length)

def byteAt (f : Flat) (index : Nat) : Except Failure UInt8 :=
  match f.bytes[index]? with
  | some b => .ok b
  | none => .error (.indexOutOfBounds index f.bytes.length)

/-- Moves the reader past the next bytes, if they are there. -/
def advance (f : Flat) (length : Nat) : Flat :=
  match f.slice f.position length with
  | .ok _ => { f with position := f.position + length }
  | .error _ => f

def perform (f : Flat) : Step → Flat
  | .add b => { f with bytes := f.bytes ++ b }
  | .read length => f.advance length
  | .skip length => f.advance length

def run (f : Flat) : List Step → Flat
  | [] => f
  | s :: rest => (f.perform s).run rest

end Flat

/-! ## The gathered string does the same -/

/-- Takes one step. -/
def perform (g : Gather) : Step → Gather
  | .add b => g.add b
  | .read length => (g.read length).2
  | .skip length => (g.skip length).2

/-- Takes steps in order. -/
def run (g : Gather) : List Step → Gather
  | [] => g
  | s :: rest => (g.perform s).run rest

/-! ### What adding leaves alone -/

theorem limit_add (g : Gather) (b : Bytes) : (g.add b).limit = g.limit := by
  rw [add]
  split
  · rfl
  · dsimp only
    split
    · rfl
    · rfl

theorem position_add (g : Gather) (b : Bytes) : (g.add b).position = g.position := by
  rw [add]
  split
  · rfl
  · dsimp only
    split
    · rfl
    · rfl

/-- Adding bytes never leaves more pieces than the limit. -/
theorem length_pieces_add_le {g : Gather} (few : g.pieces.length ≤ g.limit) (room : 0 < g.limit)
    (b : Bytes) : (g.add b).pieces.length ≤ g.limit := by
  rw [add]
  split
  · exact few
  · dsimp only
    split
    · exact room
    · rename_i allowed
      exact Nat.le_of_not_lt allowed

/-- What every step keeps. -/
structure Mirrors (limit : Nat) (g : Gather) (f : Flat) : Prop where
  laid : Laid g
  bytes : g.parts.flatten = f.bytes
  limit_eq : g.limit = max limit 1
  few : g.pieces.length ≤ max limit 1
  position : g.position = f.position
  inside : f.position ≤ f.bytes.length

namespace Mirrors

variable {limit : Nat} {g : Gather} {f : Flat}

/-- The size is the length of the flat string. -/
theorem size_eq (h : Mirrors limit g f) : g.size = f.bytes.length := by
  rw [Gather.size_eq h.laid, h.bytes]

/-- The empty string of any limit mirrors the empty flat string. -/
theorem ofLimit (limit : Nat) : Mirrors limit (Gather.ofLimit limit) {} where
  laid := trivial
  bytes := rfl
  limit_eq := rfl
  few := Nat.zero_le _
  position := rfl
  inside := Nat.le_refl 0

/-! ### Questions -/

/-- The check of a range fails where the flat string has no such range. -/
theorem checkRange_eq (h : Mirrors limit g f) (index length : Nat) :
    g.checkRange index length = (f.slice index length).map fun _ => () := by
  rw [checkRange, Flat.slice, h.size_eq]
  split
  · rfl
  · rfl

/-- A range is the range of the flat string, or the same failure. -/
theorem slice_eq (h : Mirrors limit g f) (index length : Nat) :
    g.slice index length = f.slice index length := by
  by_cases inside : index + length < addressSpace ∧ index + length ≤ f.bytes.length
  · rw [Flat.slice, if_pos inside, ← h.bytes]
    rw [← h.size_eq] at inside
    exact Gather.slice_eq h.laid inside.1 inside.2
  · rw [Gather.slice, range, h.checkRange_eq, Flat.slice, if_neg inside]
    rfl

/-- A piece is found for each position inside, and no other piece covers the position. -/
theorem pieceIndex_eq (h : Mirrors limit g f) {index : Nat} (inside : index < f.bytes.length) :
    ∃ (k : Nat) (p : Piece), g.pieceIndex index = .ok k ∧
      search g.pieces index 0 g.pieces.length = some k ∧ g.pieces[k]? = some p ∧
      p.start ≤ index ∧ index < p.stop ∧
      ∀ (j : Nat) (q : Piece), g.pieces[j]? = some q → q.start ≤ index → index < q.stop →
        j = k := by
  have covered : index < 0 + (Gather.flat g.pieces).length := by
    rw [Nat.zero_add, ← flatten_parts, h.bytes]
    exact inside
  obtain ⟨k, p, hp, begins, ends⟩ := exists_covers h.laid (Nat.zero_le _) covered
  have bound : k < g.pieces.length := (List.getElem?_eq_some_iff.mp hp).1
  refine ⟨k, p, Gather.pieceIndex_eq h.laid hp begins ends, ?_, hp, begins, ends, ?_⟩
  · exact search_eq h.laid hp begins ends 0 _ (Nat.zero_le k) bound (Nat.le_refl _)
  · intro j q hq begins' ends'
    -- of two pieces one ends before the other begins
    rcases Nat.lt_trichotomy j k with before | same | after
    · have := stop_le_start h.laid before hq hp
      omega
    · exact same
    · have := stop_le_start h.laid after hp hq
      omega

/-- No piece is found for a position outside. -/
theorem pieceIndex_of_le (h : Mirrors limit g f) {index : Nat} (outside : f.bytes.length ≤ index) :
    g.pieceIndex index = .error (.indexOutOfBounds index f.bytes.length) := by
  rw [pieceIndex, h.size_eq, if_pos outside]

/-- A piece is not empty, begins where those before it end, and ends its length behind that. -/
theorem place_eq (h : Mirrors limit g f) {i : Nat} {p : Piece} (hp : g.pieces[i]? = some p) :
    p.bytes ≠ [] ∧ p.start = (g.parts.take i).flatten.length ∧
      p.stop = p.start + p.bytes.length := by
  obtain ⟨filled, begins, ends⟩ := place_of_getElem? h.laid hp
  refine ⟨filled, ?_, ?_⟩
  · rw [begins, Nat.zero_add, Gather.flat, List.map_take]
    rfl
  · rw [ends, begins, List.take_add_one, hp, flat_append, List.length_append]
    simp

/-- The byte at a position is that of the piece which covers it. -/
theorem getElem?_piece (h : Mirrors limit g f) {k index : Nat} {p : Piece}
    (hp : g.pieces[k]? = some p) (begins : p.start ≤ index) (ends : index < p.stop) :
    p.bytes[index - p.start]? = f.bytes[index]? := by
  obtain ⟨-, at_, -⟩ := place_of_getElem? h.laid hp
  obtain ⟨bound, here⟩ := List.getElem?_eq_some_iff.mp hp
  have split : f.bytes = Gather.flat (g.pieces.take k)
      ++ (p.bytes ++ Gather.flat (g.pieces.drop (k + 1))) := by
    rw [← h.bytes, flatten_parts, ← flat_cons, ← flat_append, ← here,
      ← List.drop_eq_getElem_cons bound, List.take_append_drop]
  obtain ⟨-, -, width⟩ := h.place_eq hp
  rw [split, List.getElem?_append_right (by omega), List.getElem?_append_left (by omega)]
  congr 1
  omega

/-- A byte is the byte of the flat string, or the same failure. -/
theorem byteAt_eq (h : Mirrors limit g f) (index : Nat) : g.byteAt index = f.byteAt index := by
  rw [Gather.byteAt, Flat.byteAt]
  by_cases inside : index < f.bytes.length
  · obtain ⟨k, p, found, -, hp, begins, ends, -⟩ := h.pieceIndex_eq inside
    rw [found]
    dsimp only
    rw [hp]
    dsimp only
    rw [h.getElem?_piece hp begins ends, List.getElem?_eq_getElem inside]
  · rw [h.pieceIndex_of_le (by omega), List.getElem?_eq_none (by omega)]

/-- The whole string is the flat string. -/
theorem toBytes_eq (h : Mirrors limit g f) (small : f.bytes.length < addressSpace) :
    g.toBytes = f.bytes := by
  rw [Gather.toBytes_eq h.laid (by rw [h.bytes]; exact small), h.bytes]

/-- Bytes are read where the flat string has them, and a read that fails changes nothing. -/
theorem read_eq (h : Mirrors limit g f) (length : Nat) :
    g.read length = match f.slice f.position length with
      | .ok b => (.ok b, { g with position := f.position + length })
      | .error e => (.error e, g) := by
  cases there : f.slice f.position length <;>
    simp only [Gather.read, h.position, h.slice_eq, there]

/-- A skip passes over bytes that the flat string has, and one that fails changes nothing. -/
theorem skip_eq (h : Mirrors limit g f) (length : Nat) :
    g.skip length = match f.slice f.position length with
      | .ok _ => (.ok (), { g with position := f.position + length })
      | .error e => (.error e, g) := by
  rw [Gather.skip, h.checkRange_eq, h.position]
  cases f.slice f.position length <;> rfl

/-! ### Steps -/

/-- Adding bytes adds them to the flat string. -/
theorem add (h : Mirrors limit g f) (b : Bytes) :
    Mirrors limit (g.add b) { f with bytes := f.bytes ++ b } where
  laid := laid_add h.laid b
  bytes := by rw [flatten_parts_add, h.bytes]
  limit_eq := by rw [limit_add, h.limit_eq]
  few := by
    have room : 0 < max limit 1 := Nat.lt_of_lt_of_le Nat.one_pos (Nat.le_max_right limit 1)
    have few := h.few
    rw [← h.limit_eq] at few room ⊢
    exact length_pieces_add_le few room b
  position := by rw [position_add]; exact h.position
  inside := by
    show f.position ≤ (f.bytes ++ b).length
    rw [List.length_append]
    exact Nat.le_trans h.inside (Nat.le_add_right _ _)

/-- The reader moves past bytes that are there. -/
theorem advance (h : Mirrors limit g f) {length : Nat} {b : Bytes}
    (there : f.slice f.position length = .ok b) :
    Mirrors limit { g with position := f.position + length }
      { f with position := f.position + length } := by
  refine ⟨h.laid, h.bytes, h.limit_eq, h.few, rfl, ?_⟩
  rw [Flat.slice] at there
  split at there
  · rename_i fits
    exact fits.2
  · exact nomatch there

/-- A step of the gathered string is a step of the flat one. -/
theorem perform (h : Mirrors limit g f) (s : Step) :
    Mirrors limit (g.perform s) (f.perform s) := by
  cases s with
  | add b => exact h.add b
  | read length =>
      rw [Gather.perform, h.read_eq, Flat.perform, Flat.advance]
      cases there : f.slice f.position length with
      | ok b => exact h.advance there
      | error e => exact h
  | skip length =>
      rw [Gather.perform, h.skip_eq, Flat.perform, Flat.advance]
      cases there : f.slice f.position length with
      | ok b => exact h.advance there
      | error e => exact h

/-- A run of the gathered string is a run of the flat one. -/
theorem run {steps : List Step} :
    ∀ {g : Gather} {f : Flat}, Mirrors limit g f → Mirrors limit (g.run steps) (f.run steps) := by
  induction steps with
  | nil => intro g f h; exact h
  | cons s steps ih => intro g f h; exact ih (h.perform s)

end Mirrors

namespace Flat

theorem bytes_advance (f : Flat) (length : Nat) : (f.advance length).bytes = f.bytes := by
  rw [advance]
  split <;> rfl

/-- A step adds its bytes and no others. -/
theorem bytes_perform (f : Flat) (s : Step) : (f.perform s).bytes = f.bytes ++ s.added := by
  cases s with
  | add b => rfl
  | read length => rw [perform, bytes_advance, Step.added, List.append_nil]
  | skip length => rw [perform, bytes_advance, Step.added, List.append_nil]

/-- The bytes are those that were added, one after the other. -/
theorem bytes_run {steps : List Step} :
    ∀ f : Flat, (f.run steps).bytes = f.bytes ++ steps.flatMap Step.added := by
  induction steps with
  | nil => intro f; exact (List.append_nil _).symm
  | cons s steps ih =>
      intro f
      rw [run, ih, bytes_perform, List.flatMap_cons, List.append_assoc]

end Flat

/-! ## Whole runs -/

/-- A gathered string of at most so many pieces stands for a flat one. -/
structure Represents (limit : Nat) (g : Gather) (f : Flat) : Prop where
  size : g.size = f.bytes.length
  parts : g.parts.flatten = f.bytes
  filled : ∀ b ∈ g.parts, b ≠ []
  few : g.parts.length ≤ max limit 1
  place : ∀ (i : Nat) (p : Piece), g.pieces[i]? = some p →
    p.start = (g.parts.take i).flatten.length ∧ p.stop = p.start + p.bytes.length
  adjacent : ∀ (i : Nat) (p q : Piece), g.pieces[i]? = some p → g.pieces[i + 1]? = some q →
    q.start = p.stop
  found : ∀ index, index < f.bytes.length → ∃ (k : Nat) (p : Piece),
    g.pieceIndex index = .ok k ∧ search g.pieces index 0 g.pieces.length = some k ∧
      g.pieces[k]? = some p ∧ p.start ≤ index ∧ index < p.stop ∧
      ∀ (j : Nat) (q : Piece), g.pieces[j]? = some q → q.start ≤ index → index < q.stop → j = k
  missed : ∀ index, f.bytes.length ≤ index →
    g.pieceIndex index = .error (.indexOutOfBounds index f.bytes.length)
  byteAt : ∀ index, g.byteAt index = f.byteAt index
  range : ∀ index length, (∃ bs, g.range index length = .ok bs ∧ (∀ b ∈ bs, b ≠ []) ∧
      f.slice index length = .ok bs.flatten) ∨
    g.range index length = .error (.indexOutOfBounds index f.bytes.length) ∧
      f.slice index length = .error (.indexOutOfBounds index f.bytes.length)
  slice : ∀ index length, g.slice index length = f.slice index length
  toBytes : g.toBytes = f.bytes
  position : g.position = f.position
  inside : g.position ≤ g.size
  readable : g.readable = f.bytes.length - f.position
  read : ∀ length, g.read length = match f.slice f.position length with
    | .ok b => (.ok b, { g with position := f.position + length })
    | .error e => (.error e, g)
  skip : ∀ length, g.skip length = match f.slice f.position length with
    | .ok _ => (.ok (), { g with position := f.position + length })
    | .error e => (.error e, g)

namespace Mirrors

variable {limit : Nat} {g : Gather} {f : Flat}

/-- The parts of a range are not empty and make up the range of the flat string, or both fail alike.
-/
theorem range_eq (h : Mirrors limit g f) (index length : Nat) :
    (∃ bs, g.range index length = .ok bs ∧ (∀ b ∈ bs, b ≠ []) ∧
      f.slice index length = .ok bs.flatten) ∨
    g.range index length = .error (.indexOutOfBounds index f.bytes.length) ∧
      f.slice index length = .error (.indexOutOfBounds index f.bytes.length) := by
  have whole := h.slice_eq index length
  rw [Gather.slice] at whole
  by_cases inside : index + length < addressSpace ∧ index + length ≤ f.bytes.length
  · left
    by_cases none : length = 0
    · have nothing : g.range index length = .ok [] := by
        rw [Gather.range, h.checkRange_eq, Flat.slice, if_pos inside]
        exact if_pos none
      rw [nothing] at whole
      exact ⟨[], nothing, List.forall_mem_nil _, whole.symm⟩
    · rw [← h.size_eq] at inside
      obtain ⟨i, p, -, begins, head, rest, cut⟩ :=
        exists_range_eq h.laid inside.1 inside.2 none
      rw [cut] at whole
      exact ⟨_, cut, fun b hb => ne_nil_of_mem_slices rest begins head hb, whole.symm⟩
  · right
    rw [Flat.slice, if_neg inside, Gather.range, h.checkRange_eq, Flat.slice, if_neg inside]
    exact ⟨rfl, rfl⟩

/-- What mirrors a flat string answers every question as the flat string does. -/
theorem represents (h : Mirrors limit g f) (small : f.bytes.length < addressSpace) :
    Represents limit g f where
  size := h.size_eq
  parts := h.bytes
  filled := by
    intro b hb
    obtain ⟨p, hp, rfl⟩ := List.mem_map.mp hb
    obtain ⟨i, hi⟩ := List.getElem?_of_mem hp
    exact (h.place_eq hi).1
  few := by
    rw [Gather.parts, List.length_map]
    exact h.few
  place := fun i p hp => (h.place_eq hp).2
  adjacent := by
    intro i p q hp hq
    obtain ⟨-, -, ends⟩ := place_of_getElem? h.laid hp
    obtain ⟨-, begins, -⟩ := place_of_getElem? h.laid hq
    exact begins.trans ends.symm
  found := fun index inside => h.pieceIndex_eq inside
  missed := fun index outside => h.pieceIndex_of_le outside
  byteAt := h.byteAt_eq
  range := h.range_eq
  slice := h.slice_eq
  toBytes := h.toBytes_eq small
  position := h.position
  inside := by
    rw [h.position, h.size_eq]
    exact h.inside
  readable := by rw [Gather.readable, h.size_eq, h.position]
  read := h.read_eq
  skip := h.skip_eq

end Mirrors

/-- **A gathered string stands for the flat string of what was added**: after any steps from an
empty string of any limit, it `Represents` the bytes that were added and the position of the flat
reader. -/
theorem run_represents (limit : Nat) (steps : List Step)
    (small : (steps.flatMap Step.added).length < addressSpace) :
    (Flat.run {} steps).bytes = steps.flatMap Step.added ∧
      Represents limit ((ofLimit limit).run steps) (Flat.run {} steps) := by
  have bytes : (Flat.run {} steps).bytes = steps.flatMap Step.added := Flat.bytes_run {}
  refine ⟨bytes, (Mirrors.ofLimit limit).run.represents ?_⟩
  rw [bytes]
  exact small

/-- Pieces are merged between two reads, and a skip fails. -/
theorem run_represents_merged :
    Represents 0 ((ofLimit 0).run [.add [1, 2], .read 1, .add [], .add [3], .skip 9, .add [4, 5],
      .skip 2]) ⟨[1, 2, 3, 4, 5], 3⟩ :=
  (run_represents 0 [.add [1, 2], .read 1, .add [], .add [3], .skip 9, .add [4, 5], .skip 2]
    (by decide)).2

/-- The string came about by steps from an empty one. -/
def Reachable (g : Gather) : Prop := ∃ limit steps, g = (ofLimit limit).run steps

/-- A string that came about by steps is laid out well. -/
theorem Reachable.laid {g : Gather} (h : g.Reachable) : Laid g := by
  obtain ⟨limit, steps, rfl⟩ := h
  exact (Mirrors.ofLimit limit).run.laid

end PeerMessaging.Gather
