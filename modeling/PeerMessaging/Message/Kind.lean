/-!
# Kinds of messages and of content

A message is a request of some kind or the status of a reply; its kind travels as a number
below fifteen. Up to eight sections of content follow the header; the kind of each travels
as a number below sixteen, and eight such numbers make one word of 32 bits, the first slot
in the most significant place.
-/

namespace PeerMessaging

/-- What a message asks for, or how a reply answers. -/
inductive MessageKind where
  | request1 | request2 | request3 | request4 | requestFf1 | requestFf2
  | ok | partiallyOk | notFound | denied | unknownId | exception | cancel | user1 | user2
  deriving DecidableEq

namespace MessageKind

/-- Every kind, in the order of the codes. -/
def all : List MessageKind :=
  [request1, request2, request3, request4, requestFf1, requestFf2, ok, partiallyOk, notFound,
    denied, unknownId, exception, cancel, user1, user2]

/-- The number that stands for the kind in a packet. -/
def code : MessageKind → Nat
  | request1 => 0 | request2 => 1 | request3 => 2 | request4 => 3
  | requestFf1 => 4 | requestFf2 => 5 | ok => 6 | partiallyOk => 7
  | notFound => 8 | denied => 9 | unknownId => 10 | exception => 11
  | cancel => 12 | user1 => 13 | user2 => 14

/-- The kind with a given code. -/
def ofCode? (n : Nat) : Option MessageKind := all[n]?

/-- The name of the kind. -/
def name : MessageKind → String
  | request1 => "Request1" | request2 => "Request2" | request3 => "Request3"
  | request4 => "Request4" | requestFf1 => "RequestFf1" | requestFf2 => "RequestFf2"
  | ok => "Ok" | partiallyOk => "PartiallyOk" | notFound => "NotFound" | denied => "Denied"
  | unknownId => "UnknownId" | exception => "Exception" | cancel => "Cancel"
  | user1 => "User1" | user2 => "User2"

/-- A request, as opposed to a reply. -/
def isRequest : MessageKind → Bool
  | request1 | request2 | request3 | request4 | requestFf1 | requestFf2 => true
  | _ => false

/-- A request that nobody answers. -/
def isFireAndForget : MessageKind → Bool
  | requestFf1 | requestFf2 => true
  | _ => false

/-- A reply that succeeded, at least in part. -/
def isOk : MessageKind → Bool
  | ok | partiallyOk => true
  | _ => false

/-- A well-formed reply that did not succeed. -/
def isNotOk : MessageKind → Bool
  | notFound | denied => true
  | _ => false

theorem code_lt (k : MessageKind) : k.code < 15 := by
  cases k <;> decide

@[simp] theorem ofCode?_code (k : MessageKind) : ofCode? k.code = some k := by
  cases k <;> rfl

/-- A code that is read as a message kind is the code of that kind. -/
theorem code_of_ofCode? {n : Nat} {k : MessageKind} (h : ofCode? n = some k) : k.code = n := by
  obtain ⟨small, rfl⟩ := List.getElem?_eq_some_iff.1 h
  have : n < 15 := small
  match n, this with
  | 0, _ | 1, _ | 2, _ | 3, _ | 4, _ | 5, _ | 6, _ | 7, _ | 8, _ | 9, _ | 10, _ | 11, _
  | 12, _ | 13, _ | 14, _ => rfl

end MessageKind

/-- A kind of content whose inner form belongs to a higher layer and which travels as plain
bytes after their number. -/
inductive ForeignKind where
  | mapKey640Data | mapKey640Keys | setKey640 | setTrackerData | bloomFilter | mapKey640Byte
  deriving DecidableEq

/-- The kind of one slot of content. -/
inductive ContentKind where
  | undefined
  | empty
  | key
  | foreign (kind : ForeignKind)
  | neighbors
  | buffer
  | long
  | integer
  | signedPublicKey
  | publicKey
  | endpoints
  deriving DecidableEq

namespace ContentKind

/-- Every kind, in the order of the codes. -/
def all : List ContentKind :=
  [undefined, empty, key, foreign .mapKey640Data, foreign .mapKey640Keys, foreign .setKey640,
    neighbors, buffer, long, integer, signedPublicKey, foreign .setTrackerData,
    foreign .bloomFilter, foreign .mapKey640Byte, publicKey, endpoints]

/-- The number that stands for the kind in a packet. -/
def code : ContentKind → Nat
  | undefined => 0 | empty => 1 | key => 2
  | foreign .mapKey640Data => 3 | foreign .mapKey640Keys => 4 | foreign .setKey640 => 5
  | neighbors => 6 | buffer => 7 | long => 8 | integer => 9 | signedPublicKey => 10
  | foreign .setTrackerData => 11 | foreign .bloomFilter => 12 | foreign .mapKey640Byte => 13
  | publicKey => 14 | endpoints => 15

/-- The kind with a given code. -/
def ofCode? (n : Nat) : Option ContentKind := all[n]?

/-- The name of the kind. -/
def name : ContentKind → String
  | undefined => "Undefined" | empty => "Empty" | key => "Key"
  | foreign .mapKey640Data => "MapKey640Data" | foreign .mapKey640Keys => "MapKey640Keys"
  | foreign .setKey640 => "SetKey640" | neighbors => "SetNeighbors" | buffer => "ByteBuffer"
  | long => "Long" | integer => "Integer" | signedPublicKey => "PublicKeySignature"
  | foreign .setTrackerData => "SetTrackerData" | foreign .bloomFilter => "BloomFilter"
  | foreign .mapKey640Byte => "MapKey640Byte" | publicKey => "PublicKey"
  | endpoints => "SetPeerSocket"

/-- Whether the inner form belongs to a higher layer. -/
def isForeign : ContentKind → Bool
  | foreign _ => true
  | _ => false

/-- The kind under which values are counted: both kinds of public keys share one list. -/
def family : ContentKind → ContentKind
  | signedPublicKey => publicKey
  | k => k

theorem code_lt (k : ContentKind) : k.code < 16 := by
  cases k with
  | foreign k => cases k <;> decide
  | _ => decide

@[simp] theorem ofCode?_code (k : ContentKind) : ofCode? k.code = some k := by
  cases k with
  | foreign k => cases k <;> rfl
  | _ => rfl

/-- A code that is read as a content kind is the code of that kind. -/
theorem code_of_ofCode? {n : Nat} {k : ContentKind} (h : ofCode? n = some k) : k.code = n := by
  obtain ⟨small, rfl⟩ := List.getElem?_eq_some_iff.1 h
  have : n < 16 := small
  match n, this with
  | 0, _ | 1, _ | 2, _ | 3, _ | 4, _ | 5, _ | 6, _ | 7, _ | 8, _ | 9, _ | 10, _ | 11, _
  | 12, _ | 13, _ | 14, _ | 15, _ => rfl

end ContentKind

/-- The kinds of the eight slots of a message. -/
abbrev Slots := Vector ContentKind 8

namespace Slots

/-- The number whose hexadecimal digits are the codes, the first slot first. -/
def pack (slots : Slots) : UInt32 :=
  UInt32.ofNat (slots.toList.foldl (fun acc k => acc * 16 + k.code) 0)

/-- The kinds whose codes are the eight hexadecimal digits of a word, the leading digit
first. Every digit is the code of a kind. -/
def unpack (word : UInt32) : Slots :=
  Vector.ofFn fun i =>
    (ContentKind.ofCode? (word.toNat / 16 ^ (7 - i.val) % 16)).getD .undefined

end Slots

end PeerMessaging
