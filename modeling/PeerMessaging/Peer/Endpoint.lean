import PeerMessaging.Address.Socket
import PeerMessaging.Text.Record

/-!
# Endpoints

Where a peer, or one of its relays, can be reached: one internet address with a port for
streams and a port for datagrams.
-/

namespace PeerMessaging

/-- An internet address with its stream port and its datagram port. -/
structure Endpoint where
  ip : IpAddress
  tcpPort : UInt16
  udpPort : UInt16
  deriving DecidableEq

namespace Endpoint

/-- Where streams are accepted. -/
def tcpSocket (e : Endpoint) : SocketAddress := { ip := e.ip, port := e.tcpPort }

/-- Where datagrams are accepted. -/
def udpSocket (e : Endpoint) : SocketAddress := { ip := e.ip, port := e.udpPort }

/-- The endpoint with its type and fields, for inspection. -/
def record (e : Endpoint) : String :=
  Text.recordText "PeerSocketAddress" [("ip", e.ip.text), ("tcp_port", toString e.tcpPort.toNat),
    ("udp_port", toString e.udpPort.toNat)]

end Endpoint

end PeerMessaging
