import PeerMessaging.Address.Socket
import PeerMessaging.Address.IpText

/-!
# The network around a node

What a node can do depends on the network that its host is in: which addresses sockets can be
bound to, and whether other addresses can be reached at all.
-/

namespace PeerMessaging

/-- A network as one host sees it. If nothing can be reached there is a reason. -/
structure Network where
  canBind : IpAddress → Bool
  fault? : Option String := none

namespace Network

/-- A network in which every address can be bound and reached. -/
def connected : Network where
  canBind _ := true

/-- The network of a host that is cut off from all others and from itself. Sockets can be
bound to every address of version 4, also in its form of version 6, and to all addresses of
version 6 at once. -/
def isolated : Network where
  canBind
    | .v4 _ => true
    | .v6 bits => bits = 0 || bits >>> 32 = 0xFFFF
  fault? := some "Network is unreachable (os error 101)"

end Network

end PeerMessaging
