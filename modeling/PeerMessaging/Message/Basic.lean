import PeerMessaging.Message.Content

/-!
# Messages

A message has a header, which names the two peers and says what is asked or answered, and
content. Beside these it knows some facts that do not travel: the key to sign with, whether
its signature was checked, and the sockets between which it moved.

A reply takes over the identity of its request, so both have the same correlation key: the
number of the request together with the identity of the peer that asked.
-/

namespace PeerMessaging

/-- The largest version that a packet can carry. -/
def maxVersion : UInt32 := 0xFFFFFF

/-- Reverse connection setup through a relay; its replies may change the relay flag. -/
def rconCommand : UInt8 := 21

/-- A request or a reply. -/
structure Message where
  id : UInt32 := 0
  version : UInt32 := 0
  kind : MessageKind := .request1
  command : UInt8 := 0
  sender : PeerAddress := .unknown
  recipient : PeerAddress := .unknown
  relay : Option PeerAddress := none
  keepAlive : Bool := false
  streaming : Bool := false
  content : Content := []
  signingKey : Option Bytes := none
  verified : Bool := false
  senderSocket : Option SocketAddress := none
  recipientSocket : Option SocketAddress := none
  udp : Bool := false
  deriving DecidableEq

/-- The key that a request and its reply have in common. -/
structure CorrelationKey where
  id : UInt32
  peer : PeerId
  deriving DecidableEq

namespace Message

/-- A request, as opposed to a reply. -/
def isRequest (m : Message) : Bool := m.kind.isRequest

/-- A request that nobody answers. -/
def isFireAndForget (m : Message) : Bool := m.kind.isFireAndForget

/-- False while this is one part of a streamed answer. -/
def isDone (m : Message) : Bool := !m.streaming

/-- The identity of the peer that asked: who sends a request, and who receives a reply. -/
def correlationKey (m : Message) : CorrelationKey :=
  ⟨m.id, if m.isRequest then m.sender.id else m.recipient.id⟩

/-- The endpoints of the first endpoint section, none if there is no such section. -/
def firstEndpoints (m : Message) : List Endpoint :=
  m.content.endpointSets.headD []

/-- The reply envelope of a request: same number, version, command and keep-alive flag, sent
by `responder` back to the peer that asked. -/
def replyTo (request : Message) (responder : PeerAddress) (kind : MessageKind) : Message where
  id := request.id
  version := request.version
  kind := kind
  command := request.command
  sender := responder
  recipient := request.sender
  keepAlive := request.keepAlive
  udp := request.udp
  recipientSocket := request.senderSocket

/-- Appends one section to the content: whether it could be done, and the message as it is then. -/
def add (m : Message) (s : Section) : Except Failure Unit × Message :=
  match m.content.append s with
  | .ok content => (.ok (), { m with content := content })
  | .error fault => (.error (.state fault), m)

/-- Appends the public key of the signer and keeps the key to sign with. -/
def addSigned (m : Message) (publicKey signingKey : Bytes) : Except Failure Unit × Message :=
  match m.add (.signedPublicKey publicKey) with
  | (.ok (), m) => (.ok (), { m with signingKey := some signingKey })
  | (.error f, m) => (.error f, m)

/-- Appends bytes under a foreign kind; any other kind is refused. -/
def addForeign (m : Message) (kind : ContentKind) (data : Bytes) : Except Failure Unit × Message :=
  match kind with
  | .foreign k => m.add (.foreign k data)
  | k => (.error (.state (.notForeign k)), m)

/-- The message with the sockets between which it moved. -/
def moved (m : Message) (sender recipient : SocketAddress) (udp : Bool) : Message :=
  { m with senderSocket := some sender, recipientSocket := some recipient, udp := udp }

/-- One line for people. -/
def text (m : Message) : String :=
  "msg:nr=" ++ toString m.id.toNat ++ ",t=" ++ m.kind.name ++ ",c=" ++ toString m.command.toNat
    ++ "," ++ m.sender.id.text ++ "->" ++ m.recipient.id.text

/-- The message with its type and main fields, for inspection. -/
def record (m : Message) : String :=
  Text.recordText "Message" [("id", toString m.id.toNat), ("version", toString m.version.toNat),
    ("type", m.kind.name), ("command", toString m.command.toNat), ("sender", m.sender.id.record),
    ("recipient", m.recipient.id.record),
    ("content", Text.listText (m.content.kinds.map ContentKind.name))]

end Message

/-- The key with its type and fields, for inspection. -/
def CorrelationKey.record (k : CorrelationKey) : String :=
  Text.recordText "MessageId" [("id", toString k.id.toNat), ("peer", k.peer.record)]

end PeerMessaging
