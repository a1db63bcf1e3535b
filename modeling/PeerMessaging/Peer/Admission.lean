import PeerMessaging.Failure
import PeerMessaging.Peer.Address

/-!
# Admission by subnet

A peer table stays open to many networks if it refuses a candidate that shares a subnet with
a peer it knows. A subnet is the leading bits of an address, as many as a rule of its family
says. Long addresses are masked in two halves.
-/

namespace PeerMessaging

/-- The leading `n` of 32 bits, with the others cleared. -/
def leading32 (bits : BitVec 32) (n : Nat) : BitVec 32 :=
  if n = 32 then bits else bits &&& (BitVec.allOnes 32 <<< (32 - n))

/-- The leading `n` of 64 bits, with the others cleared. -/
def leading64 (bits : BitVec 64) (n : Nat) : BitVec 64 :=
  if n = 64 then bits else bits &&& (BitVec.allOnes 64 <<< (64 - n))

/-- The leading `n` of 128 bits, as a high and a low half. -/
def leading128 (bits : BitVec 128) (n : Nat) : BitVec 64 × BitVec 64 :=
  let high := bits.extractLsb' 64 64
  let low := bits.extractLsb' 0 64
  if n = 128 then (high, low)
  else if 64 ≤ n then (high, leading64 low (n - 64))
  else (leading64 high n, 0)

/-- How many leading bits of an address make its subnet, for each family. -/
structure SubnetFilter where
  bits4 : Nat
  bits6 : Nat
  bits4_le : bits4 ≤ 32
  bits6_le : bits6 ≤ 128

namespace SubnetFilter

/-- The filter with the given numbers of bits, unless one exceeds the size of its family. -/
def make (bits4 bits6 : Nat) : Except Failure SubnetFilter :=
  if h4 : bits4 ≤ 32 then
    if h6 : bits6 ≤ 128 then .ok ⟨bits4, bits6, h4, h6⟩
    else .error (.config (.subnetTooLong 6 bits6 128))
  else .error (.config (.subnetTooLong 4 bits4 32))

/-- Whether two addresses lie in one subnet; addresses of different families never do. -/
def sameSubnet (f : SubnetFilter) : IpAddress → IpAddress → Bool
  | .v4 a, .v4 b => leading32 b f.bits4 == leading32 a f.bits4
  | .v6 a, .v6 b => leading128 b f.bits6 == leading128 a f.bits6
  | _, _ => false

/-- Whether a candidate for a place near `target` is refused, given the known peers. -/
def rejects (f : SubnetFilter) (candidate : PeerAddress) (known : List PeerAddress)
    (_target : PeerId) : Bool :=
  known.any fun peer => f.sameSubnet candidate.ip peer.ip

end SubnetFilter

end PeerMessaging
