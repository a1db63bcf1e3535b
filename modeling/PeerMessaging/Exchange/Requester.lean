import PeerMessaging.Exchange.Service
import PeerMessaging.Request.Ids
import PeerMessaging.Request.Waiting

/-!
# Sending requests

A requester numbers its requests and sends each over a channel of its own: as a datagram, as
a datagram whose reply nobody awaits, or on a stream. The request ends with the first reply
that its correlator takes, or with an abort when the channel fails, when the time for a reply
has passed, or when the requester shuts down; after that every request is refused.

Whatever fails before a reply arrives aborts the request, unless it has ended.
-/

namespace PeerMessaging

variable {U V : Type}

/-- How a request is sent. -/
inductive Transport where
  | datagram
  | notice
  | stream
  deriving DecidableEq

/-- Who is at the address that a request is sent to. -/
inductive Remote (V : Type) where
  | nobody
  | silent
  | service (s : Service V)

/-- A node that sends requests. -/
structure Requester (U : Type) where
  here : PeerAddress
  settings : ConnectionSettings := {}
  framing : Framing := .standard
  ids : IdSource
  world : Surroundings U
  isShutDown : Bool := false

namespace Requester

/-! ## Requests -/

/-- A request to a peer, with a fresh number. -/
def newRequest (recipient : PeerAddress) (command : UInt8) (kind : MessageKind)
    (r : Requester U) : Message × Requester U :=
  let (id, ids) := r.ids.next
  ({ id := id, version := r.settings.version, kind := kind, command := command
     sender := r.here, recipient := recipient }, { r with ids := ids })

/-- The abort of every request that a shutdown meets. -/
def shutDownAbort : Abort := .user "Channel creator shut down"

/-- Changes the correlator of an outstanding request. -/
def correlate (services : Services U) (number : Nat) (f : Correlator → Correlator)
    (r : Requester U) : Requester U :=
  { r with world := r.world.correlate services number f }

/-- Shuts down: every outstanding request is given up. -/
def shutDown (services : Services U) (r : Requester U) : Requester U :=
  (List.range r.world.requests.length).foldl
    (fun r number => r.correlate services number fun c => c.abort shutDownAbort)
    { r with isShutDown := true }

/-- How a request stands. -/
def outcome (r : Requester U) (number : Nat) : Outcome :=
  (r.world.requests[number]?.map Completion.outcome).getD .pending

/-- Whether a request has ended. -/
def isCompleted (r : Requester U) (number : Nat) : Bool := !(r.outcome number).isPending

/-! ## The channel of a request -/

/-- Opens the channel of a request and writes the request: what failed, if anything did, and
the pipeline. -/
def openChannel (services : Services U) (bound number : Nat) (udp : Bool)
    (here remote : SocketAddress) (m : Message) (r : Requester U) :
    Option (Option Failure × Pipeline (Surroundings U) (StandardHandler U)) := do
  let hooks := StandardHandler.hooks services
  let channel : ChannelInfo := { here := here, remote := some remote, udp := udp }
  let window := if udp then none else some r.settings.idleTcp.nanos
  let (built, p) ← (StandardHandler.client number window).build hooks bound channel r.world {}
  match built with
  | .error f => return (some f, p)
  | .ok () =>
    let p ← { p with timers := { p.timers with listening := !udp } }.activate hooks bound
    let (result, p) ← p.write hooks bound (.message m)
    match result with
    | .ok () => return (none, p)
    | .error f => return (some f, p)

/-- Reads packets one after another until the request has ended. -/
def readReplies (services : Services U) (bound number : Nat) (udp : Bool)
    (remote : SocketAddress) : List Bytes → Pipeline (Surroundings U) (StandardHandler U) →
    Option (Pipeline (Surroundings U) (StandardHandler U))
  | [], p => some p
  | packet :: rest, p => do
    let ended := (p.world.requests[number]?.map Completion.isCompleted).getD true
    if ended || p.closeRequested then return p
    else
      let p ← p.read (StandardHandler.hooks services) bound
        (.packet packet remote p.channel.here udp)
      readReplies services bound number udp remote rest p.takeUnhandled.2

/-- What is sent to a service comes back as packets. -/
def askDatagrams (services : Services V) (bound : Nat) (here remote : SocketAddress) :
    List Bytes → Service V → Option (List Bytes × Service V)
  | [], s => some ([], s)
  | packet :: rest, s => do
    let (replies, s) ← s.answerDatagram services bound here remote packet
    let (more, s) ← askDatagrams services bound here remote rest s
    return (replies ++ more, s)

/-! ## Sending -/

/-- What nobody at the other end makes of a request. -/
def refused : Failure := .system "Connection refused (os error 111)"

/-- Sends a request as a datagram and reads the replies. -/
def overDatagrams (services : Services U) (theirs : Services V) (bound number : Nat)
    (awaits : Bool) (m : Message) (remote : Remote V) (r : Requester U) :
    Option (Option Failure × Remote V × Requester U) := do
  let here : SocketAddress := ⟨.unspecified4, 0, 0⟩
  let there := m.recipient.udpSocket
  let (failure, p) ← r.openChannel services bound number true here there m
  let sent := p.outbound.map fun o => o.buffer.toBytes
  let back (p : Pipeline (Surroundings U) (StandardHandler U)) : Requester U :=
    { r with world := p.world }
  let finish (remote : Remote V) (replies : List Bytes) :
      Option (Option Failure × Remote V × Requester U) := do
    if awaits then
      let p ← readReplies services bound number true there replies p
      return (none, remote, back p)
    else
      return (none, remote, (back p).correlate services number fun c => (c.receive none).2)
  match failure, remote with
  | some f, _ => return (some f, remote, back p)
  | none, .nobody =>
    if awaits then return (some refused, remote, back p) else finish remote []
  | none, .silent => finish remote []
  | none, .service s =>
    let (replies, s) ← askDatagrams theirs bound here there sent s
    finish (.service s) replies

/-- Sends a request on a stream and reads the replies. When the stream ends first the channel
of the request has closed. -/
def overStream (services : Services U) (theirs : Services V) (bound number : Nat)
    (m : Message) (remote : Remote V) (r : Requester U) :
    Option (Option Failure × Remote V × Requester U) := do
  let here : SocketAddress := ⟨.unspecified4, 0, 0⟩
  let there := m.recipient.tcpSocket
  match remote with
  | .nobody => return (some refused, remote, r)
  | remote =>
    let (failure, p) ← r.openChannel services bound number false here there m
    let (bytes, sent) := Service.sendFrames r.framing p.outbound []
    let (answer, isOpen, remote) ← match failure, remote with
      | none, .service s => do
        let (answer, isOpen, s) ← s.answerStream theirs bound here there bytes
        pure (answer, isOpen, Remote.service s)
      | _, remote => pure ([], true, remote)
    if failure.isSome then return (failure, remote, { r with world := p.world })
    else
      let (packets, _, broken) := r.framing.decodeAll answer
      let p ← readReplies services bound number false there packets p
      let ended := (p.world.requests[number]?.map Completion.isCompleted).getD true
      let p ← if ended || p.closeRequested || !sent || !isOpen || broken.isSome then
          p.deactivate (StandardHandler.hooks services) bound
        else pure p
      return (none, remote, { r with world := p.world })

/-- What ends a request that is still outstanding when everything has been read: the end of
this side's patience, a shutdown after some time, or the end of the other side's patience
with a stream. A window of zero never ends. -/
def endings (t : Transport) (shutDownAfter : Option Duration) (remote : Remote V)
    (r : Requester U) : List (Delayed (Correlator → Correlator)) :=
  let window (d : Duration) (f : Correlator → Correlator) :=
    if d.isZero then [] else [(⟨d.nanos, f⟩ : Delayed (Correlator → Correlator))]
  (shutDownAfter.map fun d => ⟨d.nanos, fun c => c.abort shutDownAbort⟩).toList
    ++ match t, remote with
      | .stream, .service s =>
        window r.settings.idleTcp Correlator.channelIdle
          ++ window s.idleTcp Correlator.channelClosed
      | .stream, _ => window r.settings.idleTcp Correlator.channelIdle
      | _, _ => window r.settings.idleUdp fun c => c.channelFailed .timeout

/-- Sends a request and waits for its end, at most until a shutdown. The number of the
request, and both sides afterwards. -/
def send (services : Services U) (theirs : Services V) (network : Network) (bound : Nat)
    (t : Transport) (m : Message) (shutDownAfter : Option Duration) (remote : Remote V)
    (r : Requester U) : Option (Nat × Remote V × Requester U) := do
  let number := r.world.requests.length
  let r : Requester U :=
    { r with world := { r.world with requests := r.world.requests ++ [{ request := m }] } }
  let (failure, remote, r) ←
    if r.isShutDown then pure (some (Failure.aborted shutDownAbort), remote, r)
    else match network.fault?, t with
      | some reason, _ => pure (some (Failure.system reason), remote, r)
      | none, .stream => r.overStream services theirs bound number m remote
      | none, t => r.overDatagrams services theirs bound number (t == .datagram) m remote
  let r := match failure with
    | some f => r.correlate services number fun c => c.channelFailed f
    | none =>
      let next := (r.endings t shutDownAfter remote).mergeSort fun a b => a.after ≤ b.after
      match next with
      | [] => r
      | ending :: _ => r.correlate services number ending.value
  return (number, remote, if shutDownAfter.isSome then r.shutDown services else r)

/-- The requester for inspection. -/
def record (r : Requester U) : String :=
  Text.recordText "ChannelCreator" [("config", r.settings.record),
    ("peer_bean", localRecord r.here r.world.listeners.length),
    ("shut_down", Text.boolText r.isShutDown)]

end Requester

end PeerMessaging
