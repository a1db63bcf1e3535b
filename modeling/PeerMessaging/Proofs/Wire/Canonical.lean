import PeerMessaging.Proofs.Wire.Packets
import PeerMessaging.Signature.Ed25519

/-!
# Every packet that is read is the packet of its message

The reader accepts no second spelling. Whatever it takes from the front of a packet are the bytes
that the writer would put there, up to the bits that the format leaves unused: one option in the
header word, and five flags of the sender and of each neighbor. With these bits clear a packet
without a signature is told by its message.
-/

namespace PeerMessaging

open Bytes Reader

namespace Packet

/-- The bits of a packet that mean nothing. -/
def spare (m : Message) : Bytes :=
  solid 7 ++ 0x08 :: solid 1 ++ m.sender.spare ++ solid 20 ++ solid 4
    ++ solid (relayBytes m.relay).length ++ m.content.flatMap Section.spare

/-- The spare bits of a packet, part by part. -/
theorem spare_eq (m : Message) :
    spare m = (solid 7 ++ 0x08 :: solid 1) ++ (m.sender.spare ++ (solid 20 ++ (solid 4
      ++ (solid (relayBytes m.relay).length ++ m.content.flatMap Section.spare)))) := by
  simp only [spare, List.append_assoc]

/-! ## The first nine bytes -/

/-- The number, the word with version, kind and options, and the command. -/
theorem exists_parts {first : Bytes} (nine : first.length = 9) :
    ∃ (a b : Bytes) (o c : UInt8), a.length = 4 ∧ b.length = 3 ∧ first = a ++ (b ++ [o, c]) := by
  match first, nine with
  | [a, a', a'', a''', b, b', b'', o, c], _ =>
      exact ⟨[a, a', a'', a'''], [b, b', b''], o, c, rfl, rfl, rfl⟩

/-- The word of the header is made of its three version bytes and its options. -/
theorem wordOf_parts {a b : Bytes} (o c : UInt8) (four : a.length = 4) (three : b.length = 3) :
    wordOf (a ++ (b ++ [o, c])) = Bytes.toNat b * 256 + o.toNat := by
  have word : b ++ [o, c] = (b ++ [o]) ++ [c] := (List.append_assoc b [o] [c]).symm
  rw [wordOf, List.drop_left' four, word, List.take_left' (by rw [List.length_append, three]; rfl),
    toNat_concat]

/-- Kind and options are all that is left of a byte without its spare bit. -/
theorem options_of_byte (x : UInt8) :
    x &&& ~~~0x08 = UInt8.ofNat (x.toNat / 16 * 16 + ((x.toNat.testBit 0).toNat
      + 2 * (x.toNat.testBit 1).toNat + 4 * (x.toNat.testBit 2).toNat)) := by
  revert x
  exact Bytes.forall_byte (by decide +kernel)

/-- The first nine bytes spell what the writer puts there for the message that they make. -/
theorem spells_fixed {first : Bytes} (nine : first.length = 9) {m : Message}
    (id : m.id = UInt32.ofNat (Bytes.toNat (first.take 4)))
    (version : m.version = UInt32.ofNat (wordOf first / 256))
    (kind : m.kind.code = wordOf first / 16 % 16)
    (command : m.command = UInt8.ofNat (Bytes.toNat (first.drop 8)))
    (keepAlive : m.keepAlive = (wordOf first).testBit 0)
    (streaming : m.streaming = (wordOf first).testBit 1)
    (relay : m.relay.isSome = (wordOf first).testBit 2) :
    m.version ≤ maxVersion ∧ Spells (solid 7 ++ 0x08 :: solid 1) first (fixed m) := by
  -- only the last byte of the word, with kind and options, has a bit that means nothing
  obtain ⟨a, b, o, c, four, three, rfl⟩ := exists_parts nine
  have small : Bytes.toNat b < 256 ^ 3 := three ▸ Bytes.toNat_lt b
  have byte : o.toNat < 2 ^ 8 := o.toNat_lt
  have word := wordOf_parts o c four three
  have low : ∀ i, i < 8 → (wordOf (a ++ (b ++ [o, c]))).testBit i = o.toNat.testBit i := by
    intro i hi
    rw [word, Nat.mul_comm, Nat.testBit_two_pow_mul_add _ byte, if_pos hi]
  rw [low 0 (by decide)] at keepAlive
  rw [low 1 (by decide)] at streaming
  rw [low 2 (by decide)] at relay
  have version' : m.version.toNat = Bytes.toNat b := by
    rw [version, word, UInt32.toNat_ofNat']
    omega
  have code : m.kind.code = o.toNat / 16 := by
    rw [kind, word]
    omega
  have idBytes : Bytes.ofNat 4 m.id.toNat = a := by
    have below := Bytes.toNat_lt a
    rw [four] at below
    rw [id, List.take_left' four, UInt32.toNat_ofNat', @Bytes.mod_bits 4 32 _ below (by decide),
      ← four, Bytes.ofNat_toNat]
  have wordBytes : Bytes.ofNat 4 (headerWord m) = b ++ [o &&& ~~~0x08] := by
    have kindFits := m.kind.code_lt
    have optionsFit := options_lt m
    have last : UInt8.ofNat (headerWord m) = UInt8.ofNat (m.kind.code * 16 + options m) := by
      apply UInt8.toNat_inj.mp
      rw [UInt8.toNat_ofNat', UInt8.toNat_ofNat', headerWord, Nat.add_assoc,
        Nat.mul_add_mod_self_right]
    rw [Bytes.ofNat_concat, headerWord_div, version', last, code, options, keepAlive, streaming,
      relay, ← options_of_byte, ← three, Bytes.ofNat_toNat]
  have commandByte : m.command = c := by
    have shape : a ++ (b ++ [o, c]) = a ++ (b ++ [o]) ++ [c] := by
      rw [List.append_assoc, List.append_assoc, List.singleton_append]
    have eight : (a ++ (b ++ [o])).length = 8 := by
      rw [List.length_append, List.length_append, four, three]
      rfl
    rw [command, shape, List.drop_left' eight, toNat_singleton, UInt8.ofNat_toNat]
  constructor
  · show m.version.toNat ≤ 0xFFFFFF
    omega
  · rw [fixed, idBytes, wordBytes, commandByte]
    have split : solid 7 ++ 0x08 :: solid 1 = solid 4 ++ (solid 3 ++ 0x08 :: solid 1) := rfl
    have split' : b ++ [o &&& ~~~0x08] ++ [c] = b ++ (o &&& ~~~0x08) :: [c] := List.append_assoc ..
    rw [split, split']
    refine (Spells.solid four).append ((Spells.solid three).append ?_)
    exact Spells.cons _ _ (Spells.solid rfl)

/-! ## The whole packet -/

/-- A message that came out of a packet which moved between two sockets. It comes out of its own
packet unchanged. -/
structure Received (scheme : SignatureScheme) (origin destination : SocketAddress) (udp : Bool)
    (m : Message) : Prop where
  fits : m.version ≤ maxVersion
  wellFormed : m.content.WellFormed
  sections : ∀ s ∈ m.content, Content.Received scheme s
  fixed : received origin destination udp m = m

/-- The identity of the relay is read exactly if the options tell of it, and from its own bytes. -/
theorem eq_of_run_relayAfter {word : Nat} {b rest : Bytes} {relay : Option PeerId}
    (h : (relayAfter word).run b = .ok (relay, rest)) (destination : SocketAddress) :
    relay.isSome = word.testBit 2 ∧
      b = relayBytes (relay.map fun id => .ofSocket id destination) ++ rest := by
  rw [relayAfter] at h
  cases told : word.testBit 2 with
  | false =>
      rw [told] at h
      obtain ⟨rfl, rfl⟩ := run_pure_eq_ok.mp h
      exact ⟨rfl, rfl⟩
  | true =>
      rw [told] at h
      obtain ⟨id, first, rfl⟩ := run_bind_pure_eq_ok.mp h
      obtain rfl := PeerId.eq_bytes_of_run first
      exact ⟨rfl, rfl⟩

/-- The first nine bytes, and what is read after them, spell the message that they make. -/
theorem eq_of_run_parts {scheme : SignatureScheme} {origin destination : SocketAddress} {udp : Bool}
    {first b rest : Bytes} {kind : MessageKind} {m : Message} (nine : first.length = 9)
    (known : MessageKind.ofCode? (wordOf first / 16 % 16) = some kind)
    (h : (partsReader scheme origin destination udp first kind).run b = .ok (m, rest)) :
    Received scheme origin destination udp m ∧
      ∃ back, b = back ++ rest ∧ Spells (spare m) (first ++ back) (unsigned m) := by
  obtain ⟨source, mid₁, h₁, next₁⟩ := run_bind_eq_ok.mp h
  obtain ⟨target, mid₂, h₂, next₂⟩ := run_bind_eq_ok.mp next₁
  obtain ⟨packed, mid₃, h₃, next₃⟩ := run_bind_eq_ok.mp next₂
  obtain ⟨relay, mid₄, h₄, next₄⟩ := run_bind_eq_ok.mp next₃
  obtain ⟨content, h₅, made⟩ := run_bind_pure_eq_ok.mp next₄
  obtain ⟨⟨ip, carried⟩, front, rfl, spells⟩ := PeerAddress.spelled_reader origin.ip h₁
  obtain rfl := PeerId.eq_bytes_of_run h₂
  obtain ⟨small, rfl⟩ := run_word_eq_ok.mp h₃
  obtain ⟨told, rfl⟩ := eq_of_run_relayAfter h₄ destination
  obtain ⟨⟨wellFormed, sections, slots⟩, front', rfl, spells'⟩ := Content.spelled_reader h₅
  clear h next₁ next₂ next₃ next₄ h₁ h₂ h₃ h₄ h₅
  -- each part is spelled, and it is the part of that name of the message
  have relayed : m.relay = relay.map fun id => .ofSocket id destination := by rw [← made]; rfl
  have content' : m.content = content := by rw [← made]; rfl
  have sender : m.sender = source := by rw [← made]; rfl
  have recipient : m.recipient.id = target := by rw [← made]; rfl
  have packing : (Slots.pack m.content.slots).toNat = packed := by
    rw [content', slots, Slots.pack_unpack, UInt32.toNat_ofNat',
      @Bytes.mod_bits 4 32 _ small (by decide)]
  obtain ⟨fits, fixed⟩ : m.version ≤ maxVersion ∧
      Spells (solid 7 ++ 0x08 :: solid 1) first (fixed m) := by
    rw [← made]
    refine spells_fixed nine rfl rfl (MessageKind.code_of_ofCode? known) rfl rfl rfl ?_
    rw [← told]
    exact Option.isSome_map
  refine ⟨⟨fits, content' ▸ wellFormed, content' ▸ sections, ?_⟩, front
    ++ (target.bytes ++ (Bytes.ofNat 4 packed ++ (relayBytes m.relay ++ front'))), ?_, ?_⟩
  · have sourceBack : { source.carried with ip := origin.ip } = source := by rw [carried, ← ip]
    have contentBack : Content.carried content = content :=
      (List.map_congr_left fun s hs => (sections s hs).2.2).trans (List.map_id' content)
    have relayBack : (m.relay.map fun p => PeerAddress.ofSocket p.id destination) = m.relay := by
      rw [relayed, Option.map_map]
      rfl
    rw [received, relayBack, content', contentBack, sender, sourceBack, recipient, ← made]
    rfl
  · rw [relayed]
    simp only [List.append_assoc]
  · rw [spare_eq, unsigned, header_eq, recipient, packing, sender, content']
    simp only [List.append_assoc]
    refine fixed.append (spells.append ?_)
    refine (Spells.solid target.length_bytes).append ?_
    refine (Spells.solid (Bytes.length_ofNat ..)).append ?_
    exact (Spells.solid rfl).append spells'

/-- Whatever is read of a packet is spelled by it. -/
theorem spelled_unsigned (scheme : SignatureScheme) (origin destination : SocketAddress)
    (udp : Bool) :
    (unsignedReader scheme origin destination udp).Spelled
      (Received scheme origin destination udp) spare unsigned := by
  intro b m rest h
  rw [unsignedReader_eq] at h
  obtain ⟨first, mid, taken, next⟩ := run_bind_eq_ok.mp h
  obtain ⟨nine, rfl⟩ := run_take_eq_ok.mp taken
  cases known : MessageKind.ofCode? (wordOf first / 16 % 16) with
  | none =>
      rw [known] at next
      exact absurd next run_malformed_ne_ok
  | some kind =>
      rw [known] at next
      obtain ⟨good, back, rfl, spells⟩ := eq_of_run_parts nine known next
      exact ⟨good, first ++ back, (List.append_assoc ..).symm, spells⟩

/-- A packet without a signature that was read holds nothing but its message. -/
theorem spells_of_decode {scheme : SignatureScheme} {p : Bytes}
    {origin destination : SocketAddress} {udp : Bool} {m : Message}
    (read : decode scheme p origin destination udp = .ok m) (plain : isSigned m.content = false) :
    Received scheme origin destination udp m ∧ Spells (spare m) p (unsigned m) := by
  obtain ⟨m', rest, first, ⟨-, rfl, rfl⟩ | ⟨signed, rfl, -, -⟩⟩ := decode_eq_ok_iff.mp read
  · obtain ⟨good, front, rfl, spells⟩ := spelled_unsigned scheme origin destination udp first
    rw [List.append_nil]
    exact ⟨good, spells⟩
  · -- a checked message keeps its slots, so it is not the one at hand
    exact absurd (plain.symm.trans signed) Bool.false_ne_true

/-- A message that came out of a packet is written. -/
theorem Received.encode_eq_ok {scheme : SignatureScheme} {origin destination : SocketAddress}
    {udp : Bool} {m : Message} (h : Received scheme origin destination udp m)
    (plain : isSigned m.content = false) :
    encode scheme m = .ok (filled m) ∧ (filled m).toBytes = unsigned m := by
  have sendable : ∀ s ∈ m.content, s.Sendable scheme := fun s hs => (h.sections s hs).1
  have short : ∀ s ∈ m.content, s.Short := fun s hs => (h.sections s hs).2.1
  have complete : ∀ s ∈ m.content, s.isComplete := fun s hs => (sendable s hs).isComplete
  have made := (encodeUnsigned_eq_ok_iff complete).mpr ⟨⟨h.fits, sendable⟩, rfl⟩
  constructor
  · exact encode_eq_ok_iff.mpr ⟨_, made, .inl ⟨plain, rfl⟩⟩
  · exact toBytes_filled h.wellFormed sendable short

/-- It comes out of its own packet again. -/
theorem Received.decode_eq_ok {scheme : SignatureScheme} {origin destination : SocketAddress}
    {udp : Bool} {m : Message} (h : Received scheme origin destination udp m)
    (plain : isSigned m.content = false) :
    decode scheme (unsigned m) origin destination udp = .ok m := by
  have read := reads_unsigned h.fits h.wellFormed (fun s hs => (h.sections s hs).1)
    (fun s hs => (h.sections s hs).2.1) origin destination udp []
  rw [List.append_nil, h.fixed] at read
  exact decode_eq_ok_iff.mpr ⟨m, [], read, .inl ⟨plain, rfl, rfl⟩⟩

/-- **Writing undoes reading**: a packet without a signature that is decoded is encoded again with
its `spare` bits cleared, and as it was if none of them was set. -/
theorem encode_decode {scheme : SignatureScheme} {p : Bytes} {origin destination : SocketAddress}
    {udp : Bool} {m : Message} (read : decode scheme p origin destination udp = .ok m)
    (plain : isSigned m.content = false) :
    ∃ c, encode scheme m = .ok c ∧ c.toBytes.length = p.length ∧
      c.toBytes = Bytes.clear (spare m) p ∧ (Avoids (spare m) p → c.toBytes = p) ∧
      decode scheme c.toBytes origin destination udp = .ok m ∧
      ∀ p' origin' destination' udp', decode scheme p' origin' destination' udp' = .ok m →
        Avoids (spare m) p → Avoids (spare m) p' → p' = p := by
  obtain ⟨good, spells⟩ := spells_of_decode read plain
  obtain ⟨made, flat⟩ := good.encode_eq_ok plain
  refine ⟨filled m, made, ?_, ?_, ?_, ?_, ?_⟩
  · rw [flat]
    exact spells.length_eq
  · rw [flat]
    exact spells.2.symm
  · intro avoids
    rw [flat]
    exact (spells.eq_of_avoids avoids).symm
  · rw [flat]
    exact good.decode_eq_ok plain
  · intro p' origin' destination' udp' read' avoids avoids'
    obtain ⟨-, spells'⟩ := spells_of_decode read' plain
    rw [spells.eq_of_avoids avoids, spells'.eq_of_avoids avoids']

/-- Both ends of a packet's way. -/
def somewhere : SocketAddress := PeerAddress.unknown.udpSocket

/-- A reply with a buffer and a neighbor, with every unused bit set. -/
def strayPacket : Bytes :=
  [0, 0, 0, 7, 0, 0, 1, 0x68, 3] ++ List.replicate 20 1 ++ [0xFD, 0, 1, 0, 2]
    ++ [1, 4, 10, 0, 0, 1, 0, 3, 0, 4] ++ List.replicate 20 2 ++ [0x76, 0, 0, 0]
    ++ [0, 0, 0, 2, 9, 9] ++ [1, 4, 127, 0, 0, 1] ++ List.replicate 20 3 ++ [0xF8, 0, 5, 0, 6]

/-- A packet with spare bits is decoded, and encoded without them. -/
theorem encode_decode_strayPacket :
    ∃ m, decode Ed25519.scheme strayPacket somewhere somewhere true = .ok m ∧
      isSigned m.content = false ∧
      ∃ c, encode Ed25519.scheme m = .ok c ∧ c.toBytes = Bytes.clear (spare m) strayPacket ∧
        c.toBytes ≠ strayPacket := by
  have known : (decode Ed25519.scheme strayPacket somewhere somewhere true).toOption.map
      (fun m => (isSigned m.content, Bytes.clear (spare m) strayPacket == strayPacket))
        = some (false, false) := by decide +kernel
  cases read : decode Ed25519.scheme strayPacket somewhere somewhere true with
  | error f => rw [read] at known; exact nomatch known
  | ok m =>
      rw [read] at known
      obtain ⟨plain, stray⟩ := Prod.mk.inj (Option.some.inj known)
      obtain ⟨c, made, -, cleared, -⟩ := encode_decode read plain
      refine ⟨m, rfl, plain, c, made, cleared, ?_⟩
      rw [cleared]
      exact ne_of_beq_false stray

end Packet

end PeerMessaging
