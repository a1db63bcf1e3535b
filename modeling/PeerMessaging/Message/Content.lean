import PeerMessaging.Failure
import PeerMessaging.Peer.Address

/-!
# Content of a message

A message carries up to eight sections in order. A section has a kind and usually a value; a
slot may also be announced with a kind and no value, which no packet can express. The value
of a section is found by its reference: the kind together with the number of earlier
sections of the same family.

Values of one family form one list, whatever lies between them. So the slots, the references
and the lists of values are all views of the list of sections.
-/

namespace PeerMessaging

/-- A key of 160 bits. -/
abbrev Key := BitVec 160

/-- One section of content. -/
inductive Section where
  | empty
  | key (value : Key)
  | integer (value : Int32)
  | long (value : Int64)
  | buffer (data : Bytes)
  | neighbors (peers : List PeerAddress)
  | endpoints (list : List Endpoint)
  | publicKey (data : Bytes)
  | signedPublicKey (data : Bytes)
  | foreign (kind : ForeignKind) (data : Bytes)
  | announced (kind : ContentKind)
  deriving DecidableEq

namespace Section

/-- The kind that the section shows in its slot. -/
def kind : Section → ContentKind
  | empty => .empty
  | key _ => .key
  | integer _ => .integer
  | long _ => .long
  | buffer _ => .buffer
  | neighbors _ => .neighbors
  | endpoints _ => .endpoints
  | publicKey _ => .publicKey
  | signedPublicKey _ => .signedPublicKey
  | foreign kind _ => .foreign kind
  | announced kind => kind

/-- The section that fills a slot with a kind alone. An empty section is complete then; any
other kind still lacks its value. -/
def announce : ContentKind → Section
  | .empty => .empty
  | kind => .announced kind

/-- The value of a key section. -/
def key? : Section → Option Key
  | key value => some value
  | _ => none

/-- The value of an integer section. -/
def integer? : Section → Option Int32
  | integer value => some value
  | _ => none

/-- The value of a long section. -/
def long? : Section → Option Int64
  | long value => some value
  | _ => none

/-- The bytes of a buffer section. -/
def buffer? : Section → Option Bytes
  | buffer data => some data
  | _ => none

/-- The peers of a neighbor section. -/
def neighbors? : Section → Option (List PeerAddress)
  | neighbors peers => some peers
  | _ => none

/-- The endpoints of an endpoint section. -/
def endpoints? : Section → Option (List Endpoint)
  | endpoints list => some list
  | _ => none

/-- The bytes of a public key, signed with or not. -/
def publicKey? : Section → Option Bytes
  | publicKey data => some data
  | signedPublicKey data => some data
  | _ => none

/-- The bytes of a foreign section of one kind. -/
def foreign? (wanted : ForeignKind) : Section → Option Bytes
  | foreign kind data => if kind = wanted then some data else none
  | _ => none

end Section

/-- Where the value of a slot is found: the kind, and how many earlier slots belong to the
same family. -/
structure Reference where
  index : Nat
  kind : ContentKind
  deriving DecidableEq

/-- The sections of a message in slot order. -/
abbrev Content := List Section

namespace Content

/-- The number of slots in a message. -/
def capacity : Nat := 8

/-- The kinds of the used slots. -/
def kinds (c : Content) : List ContentKind := c.map Section.kind

/-- The kinds of all eight slots; the unused ones are undefined. -/
def slots (c : Content) : Slots :=
  Vector.ofFn fun i => (c.kinds[i.val]?).getD .undefined

/-- One reference for each kind, given the kinds of the slots before. -/
def referencesAfter (earlier : List ContentKind) : List ContentKind → List Reference
  | [] => []
  | k :: rest =>
    ⟨earlier.countP fun e => e.family = k.family, k⟩ :: referencesAfter (earlier ++ [k]) rest

/-- One reference for each used slot, in slot order. -/
def references (c : Content) : List Reference := referencesAfter [] c.kinds

/-- The values of the key sections. -/
def keys (c : Content) : List Key := c.filterMap Section.key?

/-- The values of the integer sections. -/
def integers (c : Content) : List Int32 := c.filterMap Section.integer?

/-- The values of the long sections. -/
def longs (c : Content) : List Int64 := c.filterMap Section.long?

/-- The values of the buffer sections. -/
def buffers (c : Content) : List Bytes := c.filterMap Section.buffer?

/-- The sets of the neighbor sections. -/
def neighborSets (c : Content) : List (List PeerAddress) := c.filterMap Section.neighbors?

/-- The sets of the endpoint sections. -/
def endpointSets (c : Content) : List (List Endpoint) := c.filterMap Section.endpoints?

/-- The public keys, signed with or not. -/
def publicKeys (c : Content) : List Bytes := c.filterMap Section.publicKey?

/-- The values of the foreign sections of one kind. -/
def foreignData (kind : ForeignKind) (c : Content) : List Bytes :=
  c.filterMap (Section.foreign? kind)

/-- Appends a section to the first free slot. The kind must be defined, a slot must be free,
and a public key that signs the message must come first. -/
def append (c : Content) (s : Section) : Except StateFault Content :=
  if s.kind = .undefined then .error .undefinedContent
  else if capacity ≤ c.length then .error .contentFull
  else if s.kind = .signedPublicKey ∧ c ≠ [] then .error .signatureNotFirst
  else .ok (c ++ [s])

end Content

end PeerMessaging
