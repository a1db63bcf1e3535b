import PeerMessaging.Message.Content
import PeerMessaging.Signature.Scheme
import PeerMessaging.Wire.Peer

/-!
# Sections in packets

The bytes of one section follow from its kind. Buffers and foreign sections are blobs: their
length in four bytes and then the bytes themselves, which are handed on as one piece. A set
is the number of its members in one byte and the members. Public keys must be usable by the
signature scheme, on both sides.
-/

namespace PeerMessaging

/-- The bytes of a section: some that join their surroundings, or a blob that stays apart. -/
inductive Chunk where
  | inline (b : Bytes)
  | blob (data : Bytes)
  deriving DecidableEq

namespace Chunk

/-- The bytes of a chunk in the packet. A length is written in four bytes. -/
def bytes : Chunk → Bytes
  | inline b => b
  | blob data => Bytes.ofNat 4 data.length ++ data

end Chunk

/-- The bytes of a peer in a set, which also shows where the peer is reached. -/
def neighborBytes (p : PeerAddress) : Bytes := p.ip.encode ++ p.encode

/-- The value at a position of a list of values, or the fault that the slot has none. -/
def valueAt {α : Type} (values : List α) (r : Reference) : Except Failure α :=
  match values[r.index]? with
  | some v => .ok v
  | none => .error (.encode (.missingValue r.kind r.index))

/-- The chunk of the slot with a given reference. -/
def Content.chunk (scheme : SignatureScheme) (c : Content) (r : Reference) :
    Except Failure Chunk :=
  match r.kind with
  | .undefined => .ok (.inline [])
  | .empty => .ok (.inline [])
  | .key => do
    let v ← valueAt c.keys r
    return .inline (Bytes.ofNat 20 v.toNat)
  | .integer => do
    let v ← valueAt c.integers r
    return .inline (Bytes.ofNat 4 v.toBitVec.toNat)
  | .long => do
    let v ← valueAt c.longs r
    return .inline (Bytes.ofNat 8 v.toBitVec.toNat)
  | .buffer => do
    let v ← valueAt c.buffers r
    return .blob v
  | .neighbors => do
    let v ← valueAt c.neighborSets r
    if 255 < v.length then throw (.encode (.tooManyNeighbors v.length))
    return .inline (UInt8.ofNat v.length :: v.flatMap neighborBytes)
  | .endpoints => do
    let v ← valueAt c.endpointSets r
    if 255 < v.length then throw (.encode (.tooManyEndpoints v.length))
    return .inline (UInt8.ofNat v.length :: v.flatMap Endpoint.encode)
  | .publicKey => do
    let v ← valueAt c.publicKeys r
    scheme.checkPublicKey v
    return .inline (Bytes.ofNat 2 v.length ++ v)
  | .signedPublicKey => do
    let v ← valueAt c.publicKeys r
    scheme.checkPublicKey v
    return .inline (Bytes.ofNat 2 v.length ++ v)
  | .foreign kind => do
    let v ← valueAt (c.foreignData kind) r
    return .blob v

/-- The chunks of all slots, in order; the first fault counts. -/
def Content.chunks (scheme : SignatureScheme) (c : Content) : Except Failure (List Chunk) :=
  c.references.mapM (c.chunk scheme)

namespace Section

/-- Reads a blob. -/
def blobReader : Reader Bytes := do
  let length ← Reader.word 4
  Reader.take length

/-- Reads a public key that the scheme can use. -/
def publicKeyReader (scheme : SignatureScheme) : Reader Bytes := do
  let length ← Reader.word 2
  let key ← Reader.take length
  Reader.ofExcept (scheme.checkPublicKey key)
  return key

/-- Reads a peer of a set. -/
def neighborReader : Reader PeerAddress := do
  let ip ← IpAddress.reader
  PeerAddress.reader ip

/-- Reads a section of a given kind. -/
def reader (scheme : SignatureScheme) : ContentKind → Reader Section
  | .undefined => return .announced .undefined
  | .empty => return .empty
  | .key => do
    let v ← Reader.word 20
    return .key (BitVec.ofNat 160 v)
  | .integer => do
    let v ← Reader.word 4
    return .integer (Int32.ofBitVec (BitVec.ofNat 32 v))
  | .long => do
    let v ← Reader.word 8
    return .long (Int64.ofBitVec (BitVec.ofNat 64 v))
  | .buffer => do
    let data ← blobReader
    return .buffer data
  | .neighbors => do
    let count ← Reader.word 1
    let peers ← Reader.times count neighborReader
    return .neighbors peers
  | .endpoints => do
    let count ← Reader.word 1
    let list ← Reader.times count Endpoint.reader
    return .endpoints list
  | .publicKey => do
    let key ← publicKeyReader scheme
    return .publicKey key
  | .signedPublicKey => do
    let key ← publicKeyReader scheme
    return .signedPublicKey key
  | .foreign kind => do
    let data ← blobReader
    return .foreign kind data

end Section

/-- Reads the sections of the given kinds after those in `c`. An unused slot leaves a gap,
after which no used one may follow. -/
def Content.reader (scheme : SignatureScheme) :
    (gap : Bool) → List ContentKind → Content → Reader Content
  | _, [], c => return c
  | gap, k :: rest, c =>
    if k = .undefined then Content.reader scheme true rest c
    else if gap then Reader.malformed .contentAfterGap
    else do
      let s ← Section.reader scheme k
      let c ← Reader.ofExcept ((c.append s).mapError .state)
      Content.reader scheme false rest c

end PeerMessaging
