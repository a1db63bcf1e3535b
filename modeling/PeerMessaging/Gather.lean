import PeerMessaging.Bytes
import PeerMessaging.Failure

/-!
# Gathering buffers

One byte string made of several pieces that lie back to back: each piece begins where the
one before it ends. When the pieces become more than a limit they are merged into one. The
string is read from a position that only moves forward.

Positions and lengths are 64-bit numbers, so a range whose end exceeds them is out of
bounds.
-/

namespace PeerMessaging

/-- One piece of a gathered string, from `start` up to `stop`. -/
structure Piece where
  bytes : Bytes
  start : Nat
  stop : Nat
  deriving DecidableEq

/-- A byte string in pieces, with the position of its reader. -/
structure Gather where
  pieces : List Piece := []
  limit : Nat
  position : Nat := 0
  deriving DecidableEq

namespace Gather

/-- The number of pieces before a buffer merges them, unless another is asked for. -/
def defaultLimit : Nat := 16

/-- Positions are below this number. -/
def addressSpace : Nat := 2 ^ 64

/-- The empty buffer with a limit on its pieces; at least one piece is always allowed. -/
def ofLimit (limit : Nat) : Gather := { limit := max limit 1 }

/-- The empty buffer with the usual limit. -/
def empty : Gather := ofLimit defaultLimit

/-- The length of the whole string. -/
def size (g : Gather) : Nat :=
  match g.pieces.getLast? with
  | none => 0
  | some p => p.stop

/-- The bytes of the pieces, in order. -/
def parts (g : Gather) : List Bytes := g.pieces.map Piece.bytes

/-- All pieces merged into one. -/
def merged (g : Gather) : Gather :=
  { g with pieces := [⟨g.parts.flatten, 0, g.size⟩] }

/-- Appends a piece. Empty ones are ignored, and too many are merged. -/
def add (g : Gather) (b : Bytes) : Gather :=
  if b.isEmpty then g
  else
    let longer := { g with pieces := g.pieces ++ [⟨b, g.size, g.size + b.length⟩] }
    if longer.limit < longer.pieces.length then longer.merged else longer

/-- Appends pieces in order. -/
def addAll (g : Gather) (bs : List Bytes) : Gather := bs.foldl add g

/-- The buffer of the usual limit with the given pieces. -/
def ofList (bs : List Bytes) : Gather := empty.addAll bs

/-- Fails unless the range lies inside the string. -/
def checkRange (g : Gather) (index length : Nat) : Except Failure Unit :=
  if index + length < addressSpace ∧ index + length ≤ g.size then .ok ()
  else .error (.indexOutOfBounds index g.size)

/-- Halves the range of candidates from `low` up to `high` until the piece that covers the
offset is found. -/
def search (pieces : List Piece) (offset low high : Nat) : Option Nat :=
  if _h : low < high then
    let mid := low + (high - low) / 2
    match pieces[mid]? with
    | none => none
    | some p =>
      if p.stop ≤ offset then search pieces offset (mid + 1) high
      else if offset < p.start then search pieces offset low mid
      else some mid
  else none
termination_by high - low
decreasing_by all_goals omega

/-- The number of the piece that covers an offset. -/
def pieceIndex (g : Gather) (offset : Nat) : Except Failure Nat :=
  if g.size ≤ offset then .error (.indexOutOfBounds offset g.size)
  else match search g.pieces offset 0 g.pieces.length with
    | some i => .ok i
    | none => .error (.indexOutOfBounds offset g.size)

/-- The parts of a range, one for each piece it touches, from a list of pieces of which the
first covers `index`. -/
def slices : List Piece → Nat → Nat → List Bytes
  | [], _, _ => []
  | p :: rest, index, length =>
    if length = 0 then []
    else
      let skip := index - p.start
      let taken := min length (p.bytes.length - skip)
      (p.bytes.drop skip).take taken :: slices rest (index + taken) (length - taken)

/-- The parts of a range, one for each piece it touches. -/
def range (g : Gather) (index length : Nat) : Except Failure (List Bytes) :=
  match g.checkRange index length with
  | .error f => .error f
  | .ok () =>
    if length = 0 then .ok []
    else match g.pieceIndex index with
      | .error f => .error f
      | .ok i => .ok (slices (g.pieces.drop i) index length)

/-- The bytes of a range. -/
def slice (g : Gather) (index length : Nat) : Except Failure Bytes :=
  (g.range index length).map List.flatten

/-- One byte of the string. -/
def byteAt (g : Gather) (index : Nat) : Except Failure UInt8 :=
  match g.pieceIndex index with
  | .error f => .error f
  | .ok i =>
    match g.pieces[i]? with
    | none => .error (.indexOutOfBounds index g.size)
    | some p =>
      match p.bytes[index - p.start]? with
      | some b => .ok b
      | none => .error (.indexOutOfBounds index g.size)

/-- The whole string. -/
def toBytes (g : Gather) : Bytes :=
  match g.slice 0 g.size with
  | .ok b => b
  | .error _ => []

/-- How many bytes the reader has before it. -/
def readable (g : Gather) : Nat := g.size - g.position

/-- Reads bytes at the reader's position and moves it past them. Gives the string as it is then
beside the bytes or the failure. -/
def read (g : Gather) (length : Nat) : Except Failure Bytes × Gather :=
  match g.slice g.position length with
  | .ok b => (.ok b, { g with position := g.position + length })
  | .error f => (.error f, g)

/-- Moves the reader without reading: whether it could be moved, and the string as it is then. -/
def skip (g : Gather) (length : Nat) : Except Failure Unit × Gather :=
  match g.checkRange g.position length with
  | .ok () => (.ok (), { g with position := g.position + length })
  | .error f => (.error f, g)

end Gather

end PeerMessaging
