import PeerMessaging.Channel.Standard
import PeerMessaging.Config.Settings
import PeerMessaging.Exchange.Network
import PeerMessaging.Wire.Frame

/-!
# Serving requests

A service binds two sockets for each configured interface, one for streams and one for
datagrams, and answers what arrives there. It starts as far as its sockets can be bound, in
their order; sockets that were bound before one that could not stay open until the service
stops.

Every datagram and every stream goes through a pipeline of the standard handlers. A stream
ends when it breaks the framing or when a handler asks for its end.
-/

namespace PeerMessaging

variable {U : Type}

/-- A node that answers requests. -/
structure Service (U : Type) where
  settings : ServerSettings := {}
  idleTcp : Duration := .ofMillis 5000
  dispatcher : Dispatcher U
  world : Surroundings U
  tcp : List SocketAddress := []
  udp : List SocketAddress := []
  isRunning : Bool := false

namespace Service

/-! ## Starting and stopping -/

/-- Binds pairs of sockets up to the first that cannot be bound, and says whether all could. -/
def bind (network : Network) :
    List (SocketAddress × SocketAddress) → Service U → Bool × Service U
  | [], s => (true, s)
  | (tcp, udp) :: rest, s =>
    if network.canBind tcp.ip then
      let s := { s with tcp := s.tcp ++ [tcp], isRunning := true }
      if network.canBind udp.ip then bind network rest { s with udp := s.udp ++ [udp] }
      else (false, s)
    else (false, s)

/-- Starts the service, and says whether it is all there. There must be something to bind,
unless nothing is to be bound. -/
def start (network : Network) (s : Service U) : Bool × Service U :=
  if s.settings.disableBind then (true, s)
  else match s.settings.bindAddresses with
    | [] => (false, s)
    | addresses => s.bind network addresses

/-- Stops the service. -/
def stop (s : Service U) : Service U := { s with isRunning := false }

/-! ## Answering -/

/-- The framing of the streams. -/
def framing (s : Service U) : Framing := ⟨s.settings.maxFrameSize.toNat⟩

/-- The packets that answer a datagram. -/
def answerDatagram (services : Services U) (bound : Nat) (sender here : SocketAddress)
    (packet : Bytes) (s : Service U) : Option (List Bytes × Service U) := do
  let hooks := StandardHandler.hooks services
  let (built, p) ← (StandardHandler.server s.dispatcher none).build hooks bound
    { here := here, udp := true } s.world {}
  match built with
  | .error _ => return ([], { s with world := p.world })
  | .ok () =>
    let p ← p.activate hooks bound
    let p ← p.read hooks bound (.packet packet sender here true)
    return (p.outbound.map fun o => o.buffer.toBytes, { s with world := p.world })

/-- Sends the buffers that wait in a pipeline as frames on a stream; a frame that is too large
ends the stream. What was sent, and whether the stream goes on. -/
def sendFrames (framing : Framing) : List Outbound → Bytes → Bytes × Bool
  | [], stream => (stream, true)
  | o :: rest, stream =>
    match framing.encode o.buffer stream with
    | .ok stream => sendFrames framing rest stream
    | .error _ => (stream, false)

/-- Answers packets one after another, up to the end of the stream. -/
def answerPackets (services : Services U) (bound : Nat) (framing : Framing)
    (sender here : SocketAddress) : List Bytes → Bytes →
    Pipeline (Surroundings U) (StandardHandler U) →
    Option (Bytes × Bool × Pipeline (Surroundings U) (StandardHandler U))
  | [], stream, p => some (stream, true, p)
  | packet :: rest, stream, p => do
    let hooks := StandardHandler.hooks services
    let p ← p.read hooks bound (.packet packet sender here false)
    let (outbound, p) := p.takeUnhandled.2.takeOutbound
    let (stream, goesOn) := sendFrames framing outbound stream
    if goesOn && !p.closeRequested then
      answerPackets services bound framing sender here rest stream p
    else return (stream, false, p)

/-- What answers the bytes on a stream, and whether the stream stays open after it. -/
def answerStream (services : Services U) (bound : Nat) (sender here : SocketAddress)
    (arrived : Bytes) (s : Service U) : Option (Bytes × Bool × Service U) := do
  let hooks := StandardHandler.hooks services
  let (built, p) ← (StandardHandler.server s.dispatcher (some s.idleTcp.nanos)).build hooks bound
    { here := here, remote := some sender } s.world {}
  match built with
  | .error _ => return ([], false, { s with world := p.world })
  | .ok () =>
    let p ← { p with timers := { p.timers with listening := true } }.activate hooks bound
    let (packets, _, failure) := s.framing.decodeAll arrived
    let (stream, goesOn, p) ←
      answerPackets services bound s.framing sender here packets [] p
    if goesOn && failure.isNone then return (stream, true, { s with world := p.world })
    else
      let p ← p.deactivate hooks bound
      return (stream, false, { s with world := p.world })

end Service

end PeerMessaging
