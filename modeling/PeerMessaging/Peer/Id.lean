import PeerMessaging.Bytes
import PeerMessaging.Text.Record

/-!
# Peer identifiers

A peer is known by a number of 160 bits, shown as forty hexadecimal digits. Identifiers are
ordered as numbers.
-/

namespace PeerMessaging

/-- The identity of a peer. -/
@[ext]
structure PeerId where
  value : BitVec 160
  deriving DecidableEq

namespace PeerId

/-- The identifier of a peer that is not known yet. -/
def zero : PeerId := ⟨0⟩

/-- The identifier whose low-order 64 bits are the given number and whose others are zero. -/
def ofWord (n : UInt64) : PeerId := ⟨BitVec.ofNat 160 n.toNat⟩

/-- The identifier with the given bytes, most significant first. -/
def ofBytes (b : Bytes) : PeerId := ⟨BitVec.ofNat 160 b.toNat⟩

/-- The twenty bytes of the identifier, most significant first. -/
def bytes (p : PeerId) : Bytes := Bytes.ofNat 20 p.value.toNat

/-- Whether this is the identifier of an unknown peer. -/
def isZero (p : PeerId) : Bool := p.value == 0

/-- Forty hexadecimal digits after a marker. -/
def text (p : PeerId) : String := "0x" ++ Bytes.toHex p.bytes

/-- The identifier with its type, for inspection. -/
def record (p : PeerId) : String := Text.taggedText "PeerId" p.text

/-- Identifiers are ordered as numbers. -/
def compare (p q : PeerId) : Ordering := Ord.compare p.value.toNat q.value.toNat

@[simp] theorem length_bytes (p : PeerId) : p.bytes.length = 20 :=
  Bytes.length_ofNat _ _

/-- An identity comes back from its 20 bytes. -/
@[simp] theorem ofBytes_bytes (p : PeerId) : ofBytes p.bytes = p := by
  have small : p.value.toNat < 256 ^ 20 := p.value.isLt
  simp [ofBytes, bytes, Bytes.toNat_ofNat_of_lt small]

/-- 20 bytes come back from the identity that they make. -/
theorem bytes_ofBytes {b : Bytes} (h : b.length = 20) : (ofBytes b).bytes = b := by
  have small : b.toNat < 2 ^ 160 := by
    have := Bytes.toNat_lt b
    rwa [h] at this
  rw [bytes, ofBytes, BitVec.toNat_ofNat, Nat.mod_eq_of_lt small, ← h, Bytes.ofNat_toNat]

end PeerId

end PeerMessaging
