import PeerMessaging.Failure

/-!
# Traffic counters

How much moved and how requests ended. Every counter is a 64-bit word that wraps around, and
so is the number of open connections when more are closed than were opened.
-/

namespace PeerMessaging

/-- The counters of one node. -/
structure Traffic where
  datagramsReceived : UInt64 := 0
  datagramsSent : UInt64 := 0
  connectionsTotal : UInt64 := 0
  connectionsActive : UInt64 := 0
  messagesReceived : UInt64 := 0
  messagesSent : UInt64 := 0
  bytesReceived : UInt64 := 0
  bytesSent : UInt64 := 0
  decodeErrors : UInt64 := 0
  requestsCompleted : UInt64 := 0
  peerAborts : UInt64 := 0
  timeouts : UInt64 := 0
  userAborts : UInt64 := 0
  idleEvents : UInt64 := 0
  deriving DecidableEq

namespace Traffic

/-- A datagram of so many bytes came in. -/
def datagramReceived (t : Traffic) (bytes : UInt64) : Traffic :=
  { t with datagramsReceived := t.datagramsReceived + 1, bytesReceived := t.bytesReceived + bytes }

/-- A datagram of so many bytes went out. -/
def datagramSent (t : Traffic) (bytes : UInt64) : Traffic :=
  { t with datagramsSent := t.datagramsSent + 1, bytesSent := t.bytesSent + bytes }

/-- A frame of so many bytes came in on a stream. -/
def frameReceived (t : Traffic) (bytes : UInt64) : Traffic :=
  { t with bytesReceived := t.bytesReceived + bytes }

/-- A frame of so many bytes went out on a stream. -/
def frameSent (t : Traffic) (bytes : UInt64) : Traffic :=
  { t with bytesSent := t.bytesSent + bytes }

/-- A connection was opened. -/
def connectionEstablished (t : Traffic) : Traffic :=
  { t with
    connectionsTotal := t.connectionsTotal + 1
    connectionsActive := t.connectionsActive + 1 }

/-- A connection was closed. -/
def connectionClosed (t : Traffic) : Traffic :=
  { t with connectionsActive := t.connectionsActive - 1 }

/-- A packet became a message. -/
def messageReceived (t : Traffic) : Traffic :=
  { t with messagesReceived := t.messagesReceived + 1 }

/-- A message became a packet. -/
def messageSent (t : Traffic) : Traffic :=
  { t with messagesSent := t.messagesSent + 1 }

/-- A packet was dropped because it is no message. -/
def decodeError (t : Traffic) : Traffic :=
  { t with decodeErrors := t.decodeErrors + 1 }

/-- A request ended with a reply, or needed none. -/
def requestCompleted (t : Traffic) : Traffic :=
  { t with requestsCompleted := t.requestsCompleted + 1 }

/-- A request failed; refusals and transport errors count as one. -/
def requestFailed (t : Traffic) : AbortCause → Traffic
  | .peerAbort | .peerError => { t with peerAborts := t.peerAborts + 1 }
  | .timeout => { t with timeouts := t.timeouts + 1 }
  | .userAbort => { t with userAborts := t.userAborts + 1 }

/-- A channel was found idle. -/
def idleEvent (t : Traffic) : Traffic :=
  { t with idleEvents := t.idleEvents + 1 }

/-- Everything that is counted but the failures of requests, with its name; what moves has so
many bytes. -/
def events (bytes : UInt64) : List (String × (Traffic → Traffic)) :=
  [("datagram_received", fun t => t.datagramReceived bytes),
    ("datagram_sent", fun t => t.datagramSent bytes),
    ("frame_received", fun t => t.frameReceived bytes),
    ("frame_sent", fun t => t.frameSent bytes),
    ("connection_established", connectionEstablished), ("connection_closed", connectionClosed),
    ("message_received", messageReceived), ("message_sent", messageSent),
    ("decode_error", decodeError), ("request_completed", requestCompleted),
    ("idle_event", idleEvent)]

/-- Every counter with its name. -/
def counters (t : Traffic) : List (String × UInt64) :=
  [("datagrams_received", t.datagramsReceived), ("datagrams_sent", t.datagramsSent),
    ("connections_total", t.connectionsTotal), ("connections_active", t.connectionsActive),
    ("messages_received", t.messagesReceived), ("messages_sent", t.messagesSent),
    ("bytes_received", t.bytesReceived), ("bytes_sent", t.bytesSent),
    ("decode_errors", t.decodeErrors), ("requests_completed", t.requestsCompleted),
    ("peer_aborts", t.peerAborts), ("timeouts", t.timeouts), ("user_aborts", t.userAborts),
    ("idle_events", t.idleEvents)]

/-- The counters that differ from zero. -/
def nonzero (t : Traffic) : List (String × UInt64) :=
  t.counters.filter fun (_, n) => n ≠ 0

/-- What every counter gained since an earlier state. -/
def since (now before : Traffic) : Traffic where
  datagramsReceived := now.datagramsReceived - before.datagramsReceived
  datagramsSent := now.datagramsSent - before.datagramsSent
  connectionsTotal := now.connectionsTotal - before.connectionsTotal
  connectionsActive := now.connectionsActive - before.connectionsActive
  messagesReceived := now.messagesReceived - before.messagesReceived
  messagesSent := now.messagesSent - before.messagesSent
  bytesReceived := now.bytesReceived - before.bytesReceived
  bytesSent := now.bytesSent - before.bytesSent
  decodeErrors := now.decodeErrors - before.decodeErrors
  requestsCompleted := now.requestsCompleted - before.requestsCompleted
  peerAborts := now.peerAborts - before.peerAborts
  timeouts := now.timeouts - before.timeouts
  userAborts := now.userAborts - before.userAborts
  idleEvents := now.idleEvents - before.idleEvents

end Traffic

/-- Counters with the connections that are tracked one by one: each is open until it is
released, and a second release has no effect. -/
structure TrackedTraffic where
  traffic : Traffic := {}
  isOpen : List Bool := []

namespace TrackedTraffic

/-- Opens a tracked connection; its number is how many were tracked before. -/
def track (t : TrackedTraffic) : TrackedTraffic :=
  ⟨t.traffic.connectionEstablished, t.isOpen ++ [true]⟩

/-- Closes a tracked connection if it is still open. -/
def release (t : TrackedTraffic) (n : Nat) : TrackedTraffic :=
  if t.isOpen[n]? = some true then ⟨t.traffic.connectionClosed, t.isOpen.set n false⟩ else t

end TrackedTraffic

end PeerMessaging
