import PeerMessaging.Proofs.Message.Building
import PeerMessaging.Proofs.Wire.Packets
import PeerMessaging.Signature.Ed25519

/-!
# Every message that is built comes out of its packet

Whatever is put into a message step by step, its packet is read back as the same message, except
for what no packet carries: the addresses of the peers in the header, which the packet's own
sockets give, and the relays of a peer that is not relayed. A signature comes out checked, as
long as the scheme accepts what it made itself.
-/

namespace PeerMessaging

open Bytes Reader

/-- Keys of 32 bytes and signatures of 64. -/
structure SignatureScheme.HasSizes (scheme : SignatureScheme) : Prop where
  size : scheme.signatureSize = 64
  publicKey : ∀ {key : Bytes}, scheme.checkPublicKey key = .ok () → key.length = 32
  signature : ∀ {key data made : Bytes}, scheme.sign key data = .ok made → made.length = 64

namespace Ed25519

theorem length_compress (p : Edwards.Point) : p.compress.length = 32 := by
  rw [Edwards.Point.compress, List.length_reverse, Bytes.length_ofNat]

/-- Ed25519 has public keys of 32 bytes and signatures of 64. -/
theorem hasSizes : scheme.HasSizes where
  size := rfl
  publicKey := by
    intro key usable
    by_cases width : key.length = 32
    · exact width
    · have refused : publicPoint key = .error (.signature (.publicKeyLength key.length)) :=
        if_pos width
      replace usable : (publicPoint key).map (fun _ => ()) = .ok () := usable
      rw [refused] at usable
      exact nomatch usable
  signature := by
    intro key data made signed
    replace signed : sign key data = .ok made := signed
    by_cases width : key.length = 32
    · rw [sign, if_neg (not_not_intro width)] at signed
      obtain rfl := Except.ok.inj signed
      rw [List.length_append, length_compress, List.length_reverse, Bytes.length_ofNat]
    · rw [sign, if_pos width] at signed
      exact nomatch signed

end Ed25519

namespace Packet

variable {scheme : SignatureScheme} {m : Message}

/-- The scheme accepts the signature that it makes for the packet of a message. -/
def Accepted (scheme : SignatureScheme) (m : Message) : Prop :=
  ∀ signingKey unsigned signature, m.signingKey = some signingKey →
    encodeUnsigned scheme m = .ok unsigned →
    scheme.sign signingKey unsigned.toBytes = .ok signature →
    scheme.verify (m.content.publicKeys.headD []) unsigned.toBytes signature = .ok true

/-- Buffers and sections of other layers have lengths of four bytes. -/
structure Short (c : Content) : Prop where
  buffers : ∀ data ∈ c.buffers, data.length < 2 ^ 32
  foreign : ∀ kind, ∀ data ∈ c.foreignData kind, data.length < 2 ^ 32

/-- What a message has in common with the one that comes out of its packet, which moved between
two sockets. -/
structure Conveyed (origin destination : SocketAddress) (udp : Bool) (m m' : Message) : Prop where
  id : m'.id = m.id
  version : m'.version = m.version
  kind : m'.kind = m.kind
  command : m'.command = m.command
  keepAlive : m'.keepAlive = m.keepAlive
  streaming : m'.streaming = m.streaming
  senderId : m'.sender.id = m.sender.id
  senderIp : m'.sender.ip = origin.ip
  tcpPort : m'.sender.tcpPort = m.sender.tcpPort
  udpPort : m'.sender.udpPort = m.sender.udpPort
  relayed : m'.sender.relayed = m.sender.relayed
  firewalledUdp : m'.sender.firewalledUdp = m.sender.firewalledUdp
  firewalledTcp : m'.sender.firewalledTcp = m.sender.firewalledTcp
  relays : m'.sender.relays = if m.sender.relayed then m.sender.relays else []
  recipient : m'.recipient = .ofSocket m.recipient.id destination
  relay : m'.relay = m.relay.map fun relay => .ofSocket relay.id destination
  slots : m'.content.slots = m.content.slots
  references : m'.content.references = m.content.references
  keys : m'.content.keys = m.content.keys
  integers : m'.content.integers = m.content.integers
  longs : m'.content.longs = m.content.longs
  buffers : m'.content.buffers = m.content.buffers
  endpointSets : m'.content.endpointSets = m.content.endpointSets
  publicKeys : m'.content.publicKeys = m.content.publicKeys
  foreignData : ∀ kind, m'.content.foreignData kind = m.content.foreignData kind
  neighborSets : m'.content.neighborSets
    = m.content.neighborSets.map fun set => set.map PeerAddress.carried
  verified : m'.verified = isSigned m.content
  signingKey : m'.signingKey = none
  senderSocket : m'.senderSocket = some origin
  recipientSocket : m'.recipientSocket = some destination
  transport : m'.udp = udp

/-- The message that comes out, with its signature checked. -/
def arrived (origin destination : SocketAddress) (udp : Bool) (m : Message) : Message :=
  { received origin destination udp m with verified := isSigned m.content }

/-- The message that arrives has all in common with the one that was sent that `Conveyed` asks for.
-/
theorem conveyed_arrived (origin destination : SocketAddress) (udp : Bool) (m : Message) :
    Conveyed origin destination udp m (arrived origin destination udp m) where
  id := rfl
  version := rfl
  kind := rfl
  command := rfl
  keepAlive := rfl
  streaming := rfl
  senderId := rfl
  senderIp := rfl
  tcpPort := rfl
  udpPort := rfl
  relayed := rfl
  firewalledUdp := rfl
  firewalledTcp := rfl
  relays := rfl
  recipient := rfl
  relay := rfl
  slots := by
    show (Content.carried m.content).slots = _
    rw [Content.slots, Content.kinds_carried, Content.slots]
  references := by
    show (Content.carried m.content).references = _
    rw [Content.references, Content.kinds_carried, Content.references]
  keys := Content.filterMap_carried (fun s => by cases s <;> rfl) m.content
  integers := Content.filterMap_carried (fun s => by cases s <;> rfl) m.content
  longs := Content.filterMap_carried (fun s => by cases s <;> rfl) m.content
  buffers := Content.filterMap_carried (fun s => by cases s <;> rfl) m.content
  endpointSets := Content.filterMap_carried (fun s => by cases s <;> rfl) m.content
  publicKeys := Content.publicKeys_carried m.content
  foreignData := fun kind => Content.filterMap_carried (fun s => by cases s <;> rfl) m.content
  neighborSets := Content.neighborSets_carried m.content
  verified := rfl
  signingKey := rfl
  senderSocket := rfl
  recipientSocket := rfl
  transport := rfl

/-- What a packet carries of content is signed exactly if the content is. -/
theorem isSigned_carried (c : Content) : isSigned (Content.carried c) = isSigned c := by
  rw [isSigned, Content.kinds_carried, isSigned]

/-! ## Reading what was written -/

/-- Lengths fit: those of blobs because they are told to, those of keys because of their size. -/
theorem Short.section {c : Content} (short : Short c) (sizes : scheme.HasSizes)
    (sendable : ∀ s ∈ c, s.Sendable scheme) : ∀ s ∈ c, s.Short := by
  intro s hs
  cases s with
  | buffer data => exact short.buffers data (List.mem_filterMap.mpr ⟨_, hs, rfl⟩)
  | foreign kind data =>
      exact short.foreign kind data (List.mem_filterMap.mpr ⟨_, hs, if_pos rfl⟩)
  | publicKey data =>
      have width : data.length = 32 := sizes.publicKey (sendable _ hs)
      show data.length < 2 ^ 16
      omega
  | signedPublicKey data =>
      have width : data.length = 32 := sizes.publicKey (sendable _ hs)
      show data.length < 2 ^ 16
      omega
  | _ => exact trivial

/-- A message without a signature is decoded as it was read. -/
theorem decode_unsigned {origin destination : SocketAddress} {udp : Bool} {packet : Bytes}
    (unsigned : isSigned m.content = false)
    (read : (unsignedReader scheme origin destination udp).run packet
      = .ok (received origin destination udp m, [])) :
    decode scheme packet origin destination udp = .ok (arrived origin destination udp m) := by
  refine decode_eq_ok_iff.mpr ⟨_, [], read, .inl ⟨?_, ?_, rfl⟩⟩
  · exact (isSigned_carried m.content).trans unsigned
  · rw [arrived, unsigned]
    rfl

/-- A message with a signature that is accepted is decoded as it was read. -/
theorem decode_signed {origin destination : SocketAddress} {udp : Bool}
    {covered signature : Bytes} (signed : isSigned m.content = true)
    (read : (unsignedReader scheme origin destination udp).run (covered ++ signature)
      = .ok (received origin destination udp m, signature))
    (width : signature.length = scheme.signatureSize)
    (accepted : scheme.verify (m.content.publicKeys.headD []) covered signature = .ok true) :
    decode scheme (covered ++ signature) origin destination udp
      = .ok (arrived origin destination udp m) := by
  have keys : (received origin destination udp m).content.publicKeys = m.content.publicKeys :=
    Content.publicKeys_carried m.content
  have front : (covered ++ signature).take ((covered ++ signature).length - signature.length)
      = covered := by
    rw [List.length_append, Nat.add_sub_cancel, List.take_left]
  refine decode_eq_ok_iff.mpr ⟨_, signature, read, .inr ⟨?_, ?_, width, ?_⟩⟩
  · exact (isSigned_carried m.content).trans signed
  · rw [arrived, signed]
  · rw [front, keys]
    exact accepted

/-- A message whose content can be written comes out of its packet. -/
theorem decode_toBytes {c : Gather} (sizes : scheme.HasSizes) (writable : m.Writable)
    (short : Short m.content) (encoded : encode scheme m = .ok c)
    (accepted : isSigned m.content = true → Accepted scheme m)
    (origin destination : SocketAddress) (udp : Bool) :
    decode scheme c.toBytes origin destination udp = .ok (arrived origin destination udp m) := by
  obtain ⟨u, made, written⟩ := encode_eq_ok_iff.mp encoded
  obtain ⟨⟨fits, sendable⟩, filled_eq⟩ := (encodeUnsigned_eq_ok_iff writable.complete).mp made
  have shorts := short.section sizes sendable
  have reads := reads_unsigned fits writable.wellFormed sendable shorts origin destination udp
  have flat := toBytes_filled writable.wellFormed sendable shorts
  -- the signature covers just the flat packet, so it is checked over what was signed
  rcases written with ⟨unsigned, rfl⟩ | ⟨signed, key, signature, attached, signs, rfl⟩
  · rw [← filled_eq, flat]
    refine decode_unsigned unsigned ?_
    have read := reads []
    rwa [List.append_nil] at read
  · have width := sizes.signature signs
    have fine := accepted signed key u signature attached made signs
    subst filled_eq
    rw [flat] at fine
    rw [toBytes_filled_add writable.wellFormed sendable shorts (Nat.le_of_eq width)]
    exact decode_signed signed (reads signature) (width.trans sizes.size.symm) fine

/-- **Reading undoes writing**: a message that was built by typed steps comes out of its packet with
all that `Conveyed` lists. -/
theorem decode_encode_build (sizes : scheme.HasSizes) {start : Message} (envelope : start.Envelope)
    {edits : List Edit} (typed : ∀ e ∈ edits, e.isTyped) {c : Gather}
    (short : Short (start.build edits).content)
    (encoded : encode scheme (start.build edits) = .ok c)
    (accepted : isSigned (start.build edits).content = true → Accepted scheme (start.build edits))
    (origin destination : SocketAddress) (udp : Bool) :
    ∃ m', decode scheme c.toBytes origin destination udp = .ok m' ∧
      Conveyed origin destination udp (start.build edits) m' :=
  ⟨_, decode_toBytes sizes (envelope.writable.build typed) short encoded accepted origin
    destination udp, conveyed_arrived origin destination udp _⟩

/-- A peer behind two relays. -/
def relayedPeer : PeerAddress where
  id := .ofBytes (List.replicate 20 1)
  ip := .v4 0x7F000001#32
  tcpPort := 4000
  udpPort := 4001
  relayed := true
  firewalledTcp := true
  relays := [⟨.v4 0x0A000001#32, 1, 2⟩, ⟨.v6 1#128, 3, 4⟩]

/-- A signing key. -/
def someKey : Bytes := List.replicate 32 7

/-- The public key that belongs to the signing key. -/
def somePublicKey : Bytes :=
  (Edwards.Point.times (Ed25519.secretNumber ((Sha512.digest someKey).take 32)) .base).compress

/-- Steps to a signed message with some sections. One of them is refused. -/
def signedEdits : List Edit :=
  [.id 7, .version 0x10203, .kind .ok, .command 3, .sender relayedPeer, .relay .unknown,
    .keepAlive true, .add (.signed somePublicKey someKey), .add (.plain (.buffer [1, 2, 3])),
    .add (.foreign .buffer [4]), .add (.plain (.neighbors [relayedPeer, .unknown])),
    .add (.foreign (.foreign .bloomFilter) [9])]

/-- The message that the steps build. -/
def signedMessage : Message := Message.build {} signedEdits

theorem holds_of_all {α : Type} {e : Except Failure α} {a : α} {p : α → Bool} (h : e = .ok a)
    (all : e.toOption.all p = true) : p a = true := by
  subst h
  exact all

theorem eq_ok_of_all {α : Type} [DecidableEq α] {e : Except Failure α} {a : α}
    (h : e.toOption.any (decide <| · = a) = true) : e = .ok a := by
  cases e with
  | error f => exact nomatch h
  | ok b => exact congrArg Except.ok (of_decide_eq_true h)

/-- The scheme accepts the signature that it makes for the message, by computation. -/
theorem accepted_signedMessage : Accepted Ed25519.scheme signedMessage := by
  have known : signedMessage.signingKey = some someKey := by decide +kernel
  have checked : ((encodeUnsigned Ed25519.scheme signedMessage).toOption.all fun u =>
      (Ed25519.scheme.sign someKey u.toBytes).toOption.all fun s =>
        (Ed25519.scheme.verify (signedMessage.content.publicKeys.headD [])
          u.toBytes s).toOption.any (decide <| · = true)) = true := by decide +kernel
  intro signingKey unsigned signature key made signs
  obtain rfl := Option.some.inj (known.symm.trans key)
  have checked' := holds_of_all made checked
  have checked'' := holds_of_all signs checked'
  exact eq_ok_of_all checked''

/-- The message that the steps build is signed. -/
theorem isSigned_signedMessage : isSigned signedMessage.content = true := by decide +kernel

/-- No part of this message is too long for the field that holds its length. -/
theorem short_signedMessage : Short signedMessage.content := by
  refine ⟨by decide +kernel, fun kind => ?_⟩
  cases kind <;> decide +kernel

/-- This message has a packet, by computation. -/
theorem exists_encode_signedMessage : ∃ c, encode Ed25519.scheme signedMessage = .ok c := by
  have made : (encode Ed25519.scheme signedMessage).isOk = true := by decide +kernel
  cases encoded : encode Ed25519.scheme signedMessage with
  | error f => rw [encoded] at made; exact nomatch made
  | ok c => exact ⟨c, rfl⟩

/-- The packet of this message is read as the message that arrives. -/
theorem exists_decode_signedMessage (origin destination : SocketAddress) (udp : Bool) :
    ∃ packet, decode Ed25519.scheme packet origin destination udp =
      .ok (arrived origin destination udp signedMessage) := by
  obtain ⟨c, encoded⟩ := exists_encode_signedMessage
  have writable : signedMessage.Writable := Message.Envelope.new.writable.build (by decide)
  exact ⟨c.toBytes, decode_toBytes Ed25519.hasSizes writable short_signedMessage encoded
    (fun _ => accepted_signedMessage) origin destination udp⟩

/-- A message that is signed comes out of its packet. -/
theorem decode_encode_build_signedMessage :
    ∃ c, encode Ed25519.scheme signedMessage = .ok c ∧ isSigned signedMessage.content = true ∧
      ∃ m', decode Ed25519.scheme c.toBytes relayedPeer.tcpSocket relayedPeer.udpSocket true
          = .ok m' ∧
        Conveyed relayedPeer.tcpSocket relayedPeer.udpSocket true signedMessage m' := by
  obtain ⟨c, encoded⟩ := exists_encode_signedMessage
  exact ⟨c, encoded, isSigned_signedMessage, decode_encode_build Ed25519.hasSizes .new (by decide)
    short_signedMessage encoded (fun _ => accepted_signedMessage) _ _ _⟩

end Packet

end PeerMessaging
