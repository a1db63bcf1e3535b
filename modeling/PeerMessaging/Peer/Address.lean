import PeerMessaging.Peer.Endpoint
import PeerMessaging.Peer.Id

/-!
# Peer addresses

What one peer tells others about a peer: its identity, its internet address and ports, how
well it can be reached, and for a peer behind relays the endpoints of at most five of them.
The identity alone decides whether two addresses name the same peer.
-/

namespace PeerMessaging

/-- The largest number of relays that an address carries. -/
def maxRelays : Nat := 5

/-- The identity of a peer with the ways to reach it. -/
structure PeerAddress where
  id : PeerId
  ip : IpAddress
  tcpPort : UInt16
  udpPort : UInt16
  relayed : Bool := false
  firewalledUdp : Bool := false
  firewalledTcp : Bool := false
  relays : List Endpoint := []
  relays_le : relays.length ≤ maxRelays := by decide
  deriving DecidableEq

namespace PeerAddress

/-- A peer reached at one socket address for both transports. -/
def ofSocket (id : PeerId) (a : SocketAddress) : PeerAddress :=
  { id := id, ip := a.ip, tcpPort := a.port, udpPort := a.port }

/-- Stands for a peer before its address is known. -/
def unknown : PeerAddress :=
  { id := .zero, ip := .unspecified4, tcpPort := 0, udpPort := 0 }

/-- Where the peer accepts streams. -/
def tcpSocket (p : PeerAddress) : SocketAddress := { ip := p.ip, port := p.tcpPort }

/-- Where the peer accepts datagrams. -/
def udpSocket (p : PeerAddress) : SocketAddress := { ip := p.ip, port := p.udpPort }

/-- The address with its relays replaced by the first five of the given ones. -/
def withRelays (p : PeerAddress) (relays : List Endpoint) : PeerAddress :=
  { p with relays := relays.take maxRelays, relays_le := List.length_take_le _ _ }

/-- Whether two addresses name the same peer. -/
def samePeer (p q : PeerAddress) : Bool := p.id == q.id

/-- One line for people. -/
def text (p : PeerAddress) : String :=
  p.id.text ++ "@" ++ p.ip.text ++ " (tcp " ++ toString p.tcpPort.toNat ++ ", udp "
    ++ toString p.udpPort.toNat ++ (if p.relayed then ", relayed" else "") ++ ")"

/-- The address with its type and fields, for inspection. -/
def record (p : PeerAddress) : String :=
  Text.recordText "PeerAddress" [("peer_id", p.id.record), ("ip", p.ip.text),
    ("tcp_port", toString p.tcpPort.toNat), ("udp_port", toString p.udpPort.toNat),
    ("relayed", Text.boolText p.relayed), ("firewalled_udp", Text.boolText p.firewalledUdp),
    ("firewalled_tcp", Text.boolText p.firewalledTcp),
    ("relays", Text.listText (p.relays.map Endpoint.record))]

end PeerAddress

end PeerMessaging
