import PeerMessaging.Proofs.Wire.RoundTrip

/-!
# The header of a message comes out of its packet, whatever the content

Two messages that differ in their content have the same header in front of it. So a packet that
is read gives the header of the message that was written, and the kinds of its slots, even where
nothing is known of the sections: they may be too long for their lengths, or not belong together.
-/

namespace PeerMessaging

open Bytes Reader

/-- A buffer that can be read at all is read in full. -/
theorem Gather.toBytes_of_ne_nil {g : Gather} (laid : g.Laid) (readable : g.toBytes ≠ []) :
    g.toBytes = g.parts.flatten := by
  by_cases small : g.parts.flatten.length < addressSpace
  · exact toBytes_eq laid small
  · -- no range ends beyond the numbers that positions have
    refine absurd ?_ readable
    rw [← size_eq laid] at small
    have outside : ¬ (0 + g.size < addressSpace ∧ 0 + g.size ≤ g.size) := by
      rintro ⟨inside, -⟩
      omega
    simp only [toBytes, slice, range, checkRange, if_neg outside, Except.map]

namespace Packet

variable {scheme : SignatureScheme} {origin destination : SocketAddress} {udp : Bool}

/-! ## What stands in front -/

/-- What is encoded begins with the header, and its version fits. -/
theorem header_of_encodeUnsigned {m : Message} {u : Gather}
    (made : encodeUnsigned scheme m = .ok u) :
    m.version ≤ maxVersion ∧ u.Laid ∧ ∃ tail, u.parts.flatten = header m ++ tail := by
  obtain ⟨fits, chunks, -, rfl⟩ := encodeUnsigned_eq_ok.mp made
  obtain ⟨laid, flat⟩ := @Draft.foldl_put chunks { pending := header m } Gather.laid_empty
  refine ⟨fits, Gather.laid_add laid _, chunks.flatMap Chunk.bytes, ?_⟩
  rw [Draft.flatten_flush, flat]
  rfl

/-- The packet of any message starts with its header. -/
theorem header_of_encode {m : Message} {c : Gather} (encoded : encode scheme m = .ok c) :
    m.version ≤ maxVersion ∧ c.Laid ∧ ∃ tail, c.parts.flatten = header m ++ tail := by
  obtain ⟨u, made, written⟩ := encode_eq_ok_iff.mp encoded
  obtain ⟨fits, laid, tail, flat⟩ := header_of_encodeUnsigned made
  rcases written with ⟨-, rfl⟩ | ⟨-, key, signature, -, -, rfl⟩
  · exact ⟨fits, laid, tail, flat⟩
  · refine ⟨fits, Gather.laid_add laid signature, tail ++ signature, ?_⟩
    rw [Gather.flatten_parts_add, flat, List.append_assoc]

/-- Content that was set and then written has no gaps. -/
theorem writable_of_encode {m : Message} {c : Gather} (wellFormed : m.content.WellFormed)
    (meant : .announced .empty ∉ m.content) (encoded : encode scheme m = .ok c) :
    m.Writable := by
  obtain ⟨u, made, -⟩ := encode_eq_ok_iff.mp encoded
  obtain ⟨-, chunks, written, -⟩ := encodeUnsigned_eq_ok.mp made
  exact ⟨wellFormed, Content.complete_of_chunks wellFormed.defined meant written⟩

/-! ## What is read of it -/

/-- The parts before the sections make all of a message but its content. -/
theorem assembled_content (sender recipient : SocketAddress) (udp : Bool) (first : Bytes)
    (kind : MessageKind) (source : PeerAddress) (target : PeerId) (relay : Option PeerId)
    (content content' : Content) :
    { assembled sender recipient udp first kind source target relay content with
        content := content' }
      = assembled sender recipient udp first kind source target relay content' := rfl

/-- Whatever follows a header, reading it gives the message of that header. -/
theorem eq_received_of_run {m m' : Message} {tail rest : Bytes} (fits : m.version ≤ maxVersion)
    (h : (unsignedReader scheme origin destination udp).run (header m ++ tail) = .ok (m', rest)) :
    m' = { received origin destination udp m with content := m'.content } ∧
      m'.content.slots = m.content.slots := by
  obtain ⟨-, -, told⟩ := testBit_headerWord m
  have small : (Slots.pack m.content.slots).toNat < 256 ^ 4 := UInt32.toNat_lt _
  -- each part of the header is read back, so only the sections are left open
  rw [unsignedReader_eq, header_eq] at h
  simp only [List.append_assoc] at h
  rw [(reads_take (length_fixed m)).run_step, wordOf_fixed fits, headerWord_kind,
    MessageKind.ofCode?_code] at h
  replace h : (partsReader scheme origin destination udp (fixed m) m.kind).run _ = _ := h
  rw [partsReader, (PeerAddress.reads_encode m.sender origin.ip).run_step,
    (PeerId.reads_bytes m.recipient.id).run_step, (reads_word small).run_step,
    wordOf_fixed fits, (reads_relay m _ told).run_step, UInt32.ofNat_toNat,
    Slots.unpack_pack] at h
  obtain ⟨content, read, rfl⟩ := run_bind_pure_eq_ok.mp h
  obtain ⟨⟨-, -, slots⟩, -⟩ := Content.spelled_reader read
  refine ⟨?_, slots⟩
  rw [← assembled_eq fits, assembled_content]
  rfl

/-- A packet that is read is the whole buffer of the message that was written. -/
theorem toBytes_of_decode {m m' : Message} {c : Gather} (encoded : encode scheme m = .ok c)
    (read : decode scheme c.toBytes origin destination udp = .ok m') :
    c.toBytes = c.parts.flatten := by
  refine Gather.toBytes_of_ne_nil (header_of_encode encoded).2.1 ?_
  intro none
  rw [none] at read
  cases read

/-- Whatever is read of the packet of a message has its header. -/
theorem eq_received_of_decode {m m' : Message} {c : Gather} (encoded : encode scheme m = .ok c)
    (read : decode scheme c.toBytes origin destination udp = .ok m') :
    m' = { received origin destination udp m with
        content := m'.content, verified := m'.verified } ∧
      m'.content.slots = m.content.slots := by
  obtain ⟨fits, -, tail, flat⟩ := header_of_encode encoded
  rw [toBytes_of_decode encoded read, flat] at read
  obtain ⟨got, rest, h, ends⟩ := decode_eq_ok_iff.mp read
  obtain ⟨same, slots⟩ := eq_received_of_run fits h
  rcases ends with ⟨-, rfl, -⟩ | ⟨-, rfl, -, -⟩
  · refine ⟨?_, slots⟩
    rw [same]
  · refine ⟨?_, slots⟩
    show { got with verified := true } = _
    rw [same]

/-- Whatever is read of the packet of a message is the message, as long as its lengths fit. -/
theorem eq_arrived_of_decode {m m' : Message} {c : Gather} (writable : m.Writable)
    (short : ∀ s ∈ m.content, s.Short) (encoded : encode scheme m = .ok c)
    (read : decode scheme c.toBytes origin destination udp = .ok m') :
    m' = arrived origin destination udp m := by
  obtain ⟨u, made, written⟩ := encode_eq_ok_iff.mp encoded
  obtain ⟨⟨fits, sendable⟩, rfl⟩ := (encodeUnsigned_eq_ok_iff writable.complete).mp made
  have flat : ∃ tail, c.parts.flatten = unsigned m ++ tail := by
    rcases written with ⟨-, rfl⟩ | ⟨-, key, signature, -, -, rfl⟩
    · exact ⟨[], (flatten_filled m).trans (List.append_nil _).symm⟩
    · exact ⟨signature, by rw [Gather.flatten_parts_add, flatten_filled]⟩
  obtain ⟨tail, flat⟩ := flat
  rw [toBytes_of_decode encoded read, flat] at read
  obtain ⟨got, rest, h, ends⟩ := decode_eq_ok_iff.mp read
  rw [reads_unsigned fits writable.wellFormed sendable short] at h
  obtain ⟨rfl, rfl⟩ := Prod.mk.inj (Except.ok.inj h)
  have asks : isSigned (received origin destination udp m).content = isSigned m.content :=
    isSigned_carried m.content
  rw [asks] at ends
  rcases ends with ⟨plain, rfl, -⟩ | ⟨signed, rfl, -, -⟩
  · rw [arrived, plain]
    rfl
  · rw [arrived, signed]

/-- A message without content is written as its header, and read back. -/
theorem decode_of_empty {m : Message} (fits : m.version ≤ maxVersion) (empty : m.content = [])
    (origin destination : SocketAddress) (udp : Bool) :
    ∃ c, encode scheme m = .ok c ∧
      decode scheme c.toBytes origin destination udp = .ok (arrived origin destination udp m) := by
  have nowhere : ∀ {p : Section → Prop}, ∀ s ∈ m.content, p s := by
    intro p s hs
    rw [empty] at hs
    exact absurd hs List.not_mem_nil
  have wellFormed : m.content.WellFormed := empty ▸ Content.wellFormed_nil
  have plain : isSigned m.content = false := by
    rw [empty]
    rfl
  have made := (@encodeUnsigned_eq_ok_iff scheme m _ nowhere).mpr ⟨⟨fits, nowhere⟩, rfl⟩
  have flat := @toBytes_filled scheme m wellFormed nowhere nowhere
  have read := @reads_unsigned scheme m fits wellFormed nowhere nowhere origin destination udp []
  refine ⟨filled m, encode_eq_ok_iff.mpr ⟨_, made, .inl ⟨plain, rfl⟩⟩, ?_⟩
  rw [List.append_nil] at read
  rw [flat]
  exact decode_unsigned plain read

end Packet

end PeerMessaging
