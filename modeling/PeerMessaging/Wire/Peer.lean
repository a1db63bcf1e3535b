import PeerMessaging.Peer.Address
import PeerMessaging.Wire.Reader

/-!
# Peers in packets

An internet address travels as a family marker and its octets, an endpoint as its address
and two ports. A peer address travels without its internet address, which the receiver knows
from the packet itself: identity, flags, ports and, if the peer is relayed, the number of
its relays and their endpoints.
-/

namespace PeerMessaging

namespace IpAddress

/-- The marker of the family and the octets. -/
def encode : IpAddress → Bytes
  | .v4 bits => 4 :: Bytes.ofNat 4 bits.toNat
  | .v6 bits => 6 :: Bytes.ofNat 16 bits.toNat

/-- Reads a marker and the octets of its family. -/
def reader : Reader IpAddress := do
  let marker ← Reader.word 1
  if marker = 4 then
    let bits ← Reader.word 4
    return .v4 (BitVec.ofNat 32 bits)
  else if marker = 6 then
    let bits ← Reader.word 16
    return .v6 (BitVec.ofNat 128 bits)
  else Reader.malformed (.unknownAddressFamily marker)

end IpAddress

/-- A port in two bytes. -/
def portBytes (port : UInt16) : Bytes := Bytes.ofNat 2 port.toNat

/-- The port in two bytes. -/
def portOf (b : Bytes) : UInt16 := UInt16.ofNat b.toNat

namespace Endpoint

/-- The address and the two ports. -/
def encode (e : Endpoint) : Bytes :=
  e.ip.encode ++ (portBytes e.tcpPort ++ portBytes e.udpPort)

/-- Reads an address and two ports. -/
def reader : Reader Endpoint := do
  let ip ← IpAddress.reader
  let ports ← Reader.take 4
  return ⟨ip, portOf (ports.take 2), portOf (ports.drop 2)⟩

end Endpoint

namespace PeerId

/-- Reads twenty bytes. -/
def reader : Reader PeerId := do
  let b ← Reader.take 20
  return ofBytes b

end PeerId

namespace PeerAddress

/-- The flags of a peer as one number: relayed, behind a firewall for datagrams, behind one
for streams, from the lowest bit on. -/
def flags (p : PeerAddress) : Nat :=
  p.relayed.toNat + 2 * p.firewalledUdp.toNat + 4 * p.firewalledTcp.toNat

/-- Everything but the internet address. -/
def encode (p : PeerAddress) : Bytes :=
  p.id.bytes ++ (UInt8.ofNat p.flags :: portBytes p.tcpPort ++ portBytes p.udpPort)
    ++ (if p.relayed then UInt8.ofNat p.relays.length :: p.relays.flatMap Endpoint.encode else [])

/-- At most five relays. -/
abbrev FewRelays := { relays : List Endpoint // relays.length ≤ maxRelays }

theorem FewRelays.le (relays : FewRelays) : relays.val.length ≤ maxRelays := relays.property

theorem length_nil_le : ([] : List Endpoint).length ≤ maxRelays := Nat.zero_le _

/-- Reads the relays of a relayed peer: their number, at most five, and their endpoints. -/
def relaysReader : Reader FewRelays := do
  let count ← Reader.word 1
  if maxRelays < count then Reader.malformed (.tooManyRelays count)
  else do
    let relays ← Reader.times count Endpoint.reader
    if h : relays.length ≤ maxRelays then return ⟨relays, h⟩
    else Reader.malformed (.tooManyRelays relays.length)

/-- Reads the address of a peer that is known to be reached at `ip`. Flags beyond the three
that are known mean nothing. -/
def reader (ip : IpAddress) : Reader PeerAddress := do
  let id ← PeerId.reader
  let fixed ← Reader.take 5
  let flags := Bytes.toNat (fixed.take 1)
  let relayed := flags.testBit 0
  let relays ← if relayed then relaysReader else pure ⟨[], length_nil_le⟩
  return {
    id := id, ip := ip
    tcpPort := portOf ((fixed.drop 1).take 2), udpPort := portOf (fixed.drop 3)
    relayed := relayed, firewalledUdp := flags.testBit 1, firewalledTcp := flags.testBit 2
    relays := relays.val, relays_le := relays.le }

end PeerAddress

end PeerMessaging
