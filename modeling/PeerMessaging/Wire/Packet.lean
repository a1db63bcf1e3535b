import PeerMessaging.Gather
import PeerMessaging.Message.Basic
import PeerMessaging.Wire.Section

/-!
# Packets

The binary form of a message, all numbers most significant byte first:

* the number of the message in four bytes,
* one word of four bytes: 24 bits of version, four of kind, four of options,
* the command in one byte,
* the sender with its flags, ports and relays, and the identity of the recipient,
* the kinds of the eight slots in one word of four bytes,
* the identity of the recipient's relay, if an option says so,
* the sections in slot order, and
* a signature over everything before it, if the first slot asks for one.

Nothing may follow. The sender's internet address is that of the packet.
-/

namespace PeerMessaging.Packet

/-- The options of a message as one number: keep the channel alive, more replies follow, a
relay of the recipient is named, from the lowest bit on. -/
def options (m : Message) : Nat :=
  m.keepAlive.toNat + 2 * m.streaming.toNat + 4 * m.relay.isSome.toNat

/-- The word with version, kind and options. -/
def headerWord (m : Message) : Nat :=
  m.version.toNat * 256 + m.kind.code * 16 + options m

/-- Everything before the sections. -/
def header (m : Message) : Bytes :=
  Bytes.ofNat 4 m.id.toNat ++ (Bytes.ofNat 4 (headerWord m) ++ [m.command])
    ++ m.sender.encode ++ m.recipient.id.bytes
    ++ Bytes.ofNat 4 (Slots.pack m.content.slots).toNat
    ++ (match m.relay with
        | some relay => relay.id.bytes
        | none => [])

/-- A packet in the making: finished pieces, and bytes that wait for their surroundings. -/
structure Draft where
  pieces : Gather := .empty
  pending : Bytes := []

namespace Draft

/-- Ends the pending bytes as a piece of their own. -/
def flush (d : Draft) : Gather := d.pieces.add d.pending

/-- Puts a chunk at the end. A blob becomes a piece of its own, and the length before it
ends the piece before. -/
def put (d : Draft) : Chunk → Draft
  | .inline b => { d with pending := d.pending ++ b }
  | .blob data =>
    { pieces := { d with pending := d.pending ++ Bytes.ofNat 4 data.length }.flush.add data }

end Draft

/-- The packet without a signature. -/
def encodeUnsigned (scheme : SignatureScheme) (m : Message) : Except Failure Gather :=
  if maxVersion < m.version then .error (.encode (.versionTooLarge m.version.toNat))
  else match m.content.chunks scheme with
    | .error f => .error f
    | .ok chunks => .ok (chunks.foldl Draft.put { pending := header m }).flush

/-- Whether the first slot asks for a signature. -/
def isSigned (c : Content) : Bool := c.kinds.head? == some .signedPublicKey

/-- The packet of a message. -/
def encode (scheme : SignatureScheme) (m : Message) : Except Failure Gather :=
  match encodeUnsigned scheme m with
  | .error f => .error f
  | .ok unsigned =>
    if isSigned m.content then
      match m.signingKey with
      | none => .error (.signature .noSigningKey)
      | some key =>
        match scheme.sign key unsigned.toBytes with
        | .error f => .error f
        | .ok signature => .ok (unsigned.add signature)
    else .ok unsigned

/-- Reads everything before the signature of a packet that moved between two sockets. -/
def unsignedReader (scheme : SignatureScheme) (sender recipient : SocketAddress) (udp : Bool) :
    Reader Message := do
  let fixed ← Reader.take 9
  let word := Bytes.toNat ((fixed.drop 4).take 4)
  match MessageKind.ofCode? (word / 16 % 16) with
  | none => Reader.malformed (.unknownMessageKind (word / 16 % 16))
  | some kind =>
    let source ← PeerAddress.reader sender.ip
    let target ← PeerId.reader
    let packed ← Reader.word 4
    let relay ← if word.testBit 2 then some <$> PeerId.reader else pure none
    let content ← Content.reader scheme false (Slots.unpack (UInt32.ofNat packed)).toList []
    return {
      id := UInt32.ofNat (Bytes.toNat (fixed.take 4))
      version := UInt32.ofNat (word / 256)
      kind := kind
      command := UInt8.ofNat (Bytes.toNat (fixed.drop 8))
      sender := source
      recipient := .ofSocket target recipient
      relay := relay.map fun id => .ofSocket id recipient
      keepAlive := word.testBit 0
      streaming := word.testBit 1
      content := content
      senderSocket := some sender
      recipientSocket := some recipient
      udp := udp }

/-- A message that was read with nothing left after it. -/
def complete (m : Message) (rest : Bytes) : Except Failure Message :=
  if rest.isEmpty then .ok m else .error (.decode (.trailing rest.length))

/-- The message of a packet that moved between two sockets. A signature must match all that
stands before it. -/
def decode (scheme : SignatureScheme) (packet : Bytes) (sender recipient : SocketAddress)
    (udp : Bool) : Except Failure Message :=
  match (unsignedReader scheme sender recipient udp).run packet with
  | .error f => .error f
  | .ok (m, rest) =>
    if isSigned m.content then
      match (Reader.take scheme.signatureSize).run rest with
      | .error f => .error f
      | .ok (signature, rest') =>
        let covered := packet.take (packet.length - rest.length)
        match scheme.verify (m.content.publicKeys.headD []) covered signature with
        | .error f => .error f
        | .ok false => .error (.signature (.mismatch m.id.toNat))
        | .ok true => complete { m with verified := true } rest'
    else complete m rest

end PeerMessaging.Packet
