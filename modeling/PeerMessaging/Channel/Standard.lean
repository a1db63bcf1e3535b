import PeerMessaging.Channel.Arrangement
import PeerMessaging.Channel.Idle
import PeerMessaging.Dispatch
import PeerMessaging.Request.Correlator
import PeerMessaging.Wire.Packet

/-!
# Standard handlers

Five kinds of handlers make a messaging channel:

* a decoder reads packets as messages and drops what is no message,
* an encoder writes messages as packets, which on datagrams must not be too large,
* a dispatcher answers requests and closes a stream that is not to be kept alive,
* an idle watch raises an event when neither reads nor writes were seen for a window, and
* a correlator takes replies to one outstanding request.

Around them are the counters, the outstanding requests by number, the listeners, and a state
that only listeners and command handlers change.
-/

namespace PeerMessaging

/-- The largest packet that is sent as a datagram. -/
def maxDatagram : Nat := 1400

/-- What surrounds the channels of a node. -/
structure Surroundings (U : Type) where
  user : U
  traffic : Traffic := {}
  requests : List Completion := []
  listeners : List Nat := []

/-- What the standard handlers are given: how to sign, and how listeners change the state
around them. -/
structure Services (U : Type) where
  scheme : SignatureScheme
  hear : Notice → U → U

/-- A standard handler. -/
inductive StandardHandler (U : Type) where
  | decoder
  | encoder
  | dispatcher (d : Dispatcher U)
  | idle (d : IdleDetector)
  | request (number : Nat)

variable {U : Type}

namespace Surroundings

/-- Counts something. -/
def count (w : Surroundings U) (f : Traffic → Traffic) : Surroundings U :=
  { w with traffic := f w.traffic }

/-- The correlator of a request, with nothing heard yet. -/
def correlator? (w : Surroundings U) (number : Nat) : Option Correlator :=
  w.requests[number]?.map fun completion =>
    { completion := completion, listeners := w.listeners, traffic := w.traffic }

/-- The surroundings after the correlator of a request has changed: the listeners hear what
it has to tell. -/
def put (services : Services U) (w : Surroundings U) (number : Nat) (c : Correlator) :
    Surroundings U :=
  { w with
    requests := w.requests.set number c.completion
    traffic := c.traffic
    user := c.notices.foldl (fun u n => services.hear n u) w.user }

/-- Changes the correlator of a request. -/
def correlate (services : Services U) (w : Surroundings U) (number : Nat)
    (f : Correlator → Correlator) : Surroundings U :=
  match w.correlator? number with
  | none => w
  | some c => w.put services number (f c)

/-- Gives a reply to the correlator of a request; whether its channel is to be closed. -/
def deliver (services : Services U) (w : Surroundings U) (number : Nat) (reply : Message) :
    Bool × Surroundings U :=
  match w.correlator? number with
  | none => (false, w)
  | some c =>
    let (disposition, c') := c.receive (some reply)
    (disposition == .completed && !c.request.keepAlive, w.put services number c')

end Surroundings

namespace StandardHandler

/-- How the handler takes part in its channel. -/
def role : StandardHandler U → HandlerRole
  | encoder => .outbound
  | idle _ => .duplex
  | _ => .inbound

/-- The handler for a new channel. -/
def fresh : StandardHandler U → StandardHandler U
  | idle d => .idle { window := d.window }
  | other => other

/-- Starts an idle watch. -/
def startIdle (d : IdleDetector) (now : Nat) : StandardHandler U × List Effect :=
  let (delay, d) := d.start now
  (.idle d, (delay.map Effect.arm).toList)

/-- What signals do to an idle watch. -/
def idleSignal (d : IdleDetector) (s : Signal) (c : Context) (w : Surroundings U) :
    Reaction (Surroundings U) (StandardHandler U) (Except Failure Unit) :=
  match s with
  | .added =>
    if c.channel.active then
      let (h, effects) := startIdle d c.now
      ⟨h, w, effects, .ok ()⟩
    else .still (.idle d) w (.ok ())
  | .active =>
    let (h, effects) := startIdle d c.now
    ⟨h, w, effects, .ok ()⟩
  | .removed | .inactive => ⟨.idle d.stop, w, [.disarm], .ok ()⟩
  | .timer =>
    match d.check c.now with
    | none => .still (.idle d) w (.ok ())
    | some check =>
      if check.idle then
        ⟨.idle d, w.count Traffic.idleEvent, [.arm check.nextDelay, .raise .allIdle], .ok ()⟩
      else ⟨.idle d, w, [.arm check.nextDelay], .ok ()⟩
  | .event _ => .still (.idle d) w (.ok ())

/-- What signals do to the handlers. -/
def signal (services : Services U) (s : Signal) :
    Hook (Surroundings U) (StandardHandler U) (Except Failure Unit) := fun c h w =>
  match h, s with
  | .idle d, s => idleSignal d s c w
  | .dispatcher d, .event .allIdle => ⟨.dispatcher d, w, [.close], .ok ()⟩
  | .request n, .event .allIdle =>
    ⟨.request n, w.correlate services n Correlator.channelIdle, [.close], .ok ()⟩
  | .request n, .inactive =>
    .still (.request n) (w.correlate services n Correlator.channelClosed) (.ok ())
  | h, _ => .still h w (.ok ())

/-- What a decoder makes of a packet. -/
def decode (services : Services U) (bytes : Bytes) (sender recipient : SocketAddress)
    (udp : Bool) (w : Surroundings U) : Option Item × Surroundings U :=
  match Packet.decode services.scheme bytes sender recipient udp with
  | .ok m => (some (.message m), w.count Traffic.messageReceived)
  | .error _ => (none, w.count Traffic.decodeError)

/-- The answer of a dispatcher to a request, as what it asks of the channel. -/
def answer (d : Dispatcher U) (request : Message) (udp : Bool) (w : Surroundings U) :
    List Effect × Surroundings U :=
  let (reply, user) := d.respond request w.user
  ((reply.map fun m => Effect.write (.message m)).toList
      ++ (if !udp && !request.keepAlive then [.close] else []),
    { w with user := user })

/-- How the handlers read. -/
def read (services : Services U) (item : Item) :
    Hook (Surroundings U) (StandardHandler U) (Except Failure (Option Item)) := fun c h w =>
  match h, item with
  | .decoder, .packet bytes sender recipient udp =>
    let (item, w) := decode services bytes sender recipient udp w
    .still h w (.ok item)
  | .dispatcher d, .message m =>
    if m.isRequest then
      let (effects, w) := answer d m c.channel.udp w
      ⟨h, w, effects, .ok none⟩
    else .still h w (.ok (some item))
  | .request n, .message m =>
    if m.isRequest then .still h w (.ok (some item))
    else
      let (close, w) := w.deliver services n m
      ⟨h, w, if close then [.close] else [], .ok none⟩
  | .idle d, item => .still (.idle (d.recordRead c.now)) w (.ok (some item))
  | h, item => .still h w (.ok (some item))

/-- The packet of a message for a channel. -/
def encode (services : Services U) (m : Message) (udp : Bool) : Except Failure Gather :=
  match Packet.encode services.scheme m with
  | .error f => .error f
  | .ok buffer =>
    if udp ∧ maxDatagram < buffer.size then .error (.oversizedPacket buffer.size)
    else .ok buffer

/-- How the handlers write. -/
def write (services : Services U) (item : Item) :
    Hook (Surroundings U) (StandardHandler U) (Except Failure Item) := fun c h w =>
  match h, item with
  | .encoder, .message m =>
    match encode services m c.channel.udp with
    | .ok buffer => .still h (w.count Traffic.messageSent) (.ok (.encoded buffer))
    | .error f => .still h w (.error f)
  | .idle d, item => .still (.idle (d.recordWrite c.now)) w (.ok item)
  | h, item => .still h w (.ok item)

/-- What a failure does to the handlers. -/
def caught (services : Services U) (f : Failure) :
    Hook (Surroundings U) (StandardHandler U) Unit := fun c h w =>
  match h with
  | .dispatcher _ => ⟨h, w, if c.channel.udp then [] else [.close], ()⟩
  | .request n => .still h (w.correlate services n fun c => c.channelFailed f) ()
  | h => .still h w ()

/-- How the standard handlers behave. -/
def hooks (services : Services U) : Hooks (Surroundings U) (StandardHandler U) where
  role := role
  signal := signal services
  read := read services
  write := write services
  caught := caught services
  fresh := fresh

/-- The handlers of a channel that serves requests: an idle watch on a stream, then a
decoder, an encoder and the dispatcher. -/
def server (d : Dispatcher U) (idleWindow : Option Nat) : Blueprint (StandardHandler U) where
  prototypes := (idleWindow.map fun w => ("idle", .idle { window := w })).toList
    ++ [("decoder", .decoder), ("encoder", .encoder), ("dispatcher", .dispatcher d)]

/-- The handlers of a channel that carries one request: an idle watch on a stream, then a
decoder, an encoder and the correlator. -/
def client (number : Nat) (idleWindow : Option Nat) : Blueprint (StandardHandler U) where
  prototypes := (idleWindow.map fun w => ("idle", .idle { window := w })).toList
    ++ [("decoder", .decoder), ("encoder", .encoder), ("request", .request number)]

end StandardHandler

end PeerMessaging
