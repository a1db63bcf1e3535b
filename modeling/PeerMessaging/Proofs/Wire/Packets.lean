import PeerMessaging.Proofs.Gather.Layout
import PeerMessaging.Proofs.Message.Slots
import PeerMessaging.Proofs.Wire.Content
import PeerMessaging.Wire.Packet

/-!
# Packets part by part

The packet of a message goes through a gathering buffer. Whatever the pieces are, they lie back
to back and their bytes are the header and then the sections, one after the other. And reading a
packet goes through the same parts in the same order, so what is known of each part is known of
the packet.
-/

namespace PeerMessaging

open Bytes Reader

/-! ## The last byte of a number -/

namespace Bytes

theorem toNat_singleton (x : UInt8) : toNat [x] = x.toNat := by
  simp [toNat]

/-- A byte that is appended is the last digit to the base 256. -/
theorem toNat_concat (b : Bytes) (x : UInt8) : toNat (b ++ [x]) = toNat b * 256 + x.toNat := by
  induction b with
  | nil => rw [List.nil_append, toNat_singleton, toNat, Nat.zero_mul, Nat.zero_add]
  | cons y b ih =>
      rw [List.cons_append, toNat, toNat, ih, List.length_append, List.length_singleton,
        Nat.pow_succ, Nat.add_mul, Nat.mul_assoc, Nat.add_assoc]

/-- The last byte of a number is its last digit to the base 256. -/
theorem ofNat_concat (n v : Nat) : ofNat (n + 1) v = ofNat n (v / 256) ++ [UInt8.ofNat v] := by
  induction n with
  | zero => exact ofNat_one v
  | succ n ih =>
      rw [ofNat, ih, ofNat, List.cons_append, Nat.pow_succ', ← Nat.div_div_eq_div_mul]

end Bytes

namespace Packet

/-! ## The header word -/

theorem options_lt (m : Message) : options m < 8 := by
  have := m.keepAlive.toNat_le
  have := m.streaming.toNat_le
  have := m.relay.isSome.toNat_le
  rw [options]
  omega

/-- The word of a version that fits has four bytes. -/
theorem headerWord_lt {m : Message} (fits : m.version ≤ maxVersion) :
    headerWord m < 256 ^ 4 := by
  have version : m.version.toNat ≤ 0xFFFFFF := fits
  have kind := m.kind.code_lt
  have := options_lt m
  rw [headerWord]
  omega

/-- The upper three bytes of the word are the version. -/
theorem headerWord_div (m : Message) : headerWord m / 256 = m.version.toNat := by
  have kind := m.kind.code_lt
  have := options_lt m
  rw [headerWord]
  omega

/-- The upper half of the lowest byte is the kind of the message. -/
theorem headerWord_kind (m : Message) : headerWord m / 16 % 16 = m.kind.code := by
  have kind := m.kind.code_lt
  have := options_lt m
  rw [headerWord]
  omega

/-- The options are the lowest bits of the word. -/
theorem testBit_headerWord (m : Message) :
    (headerWord m).testBit 0 = m.keepAlive ∧ (headerWord m).testBit 1 = m.streaming ∧
      (headerWord m).testBit 2 = m.relay.isSome := by
  -- the options lie below the kind and the version
  have shape : headerWord m = 2 ^ 4 * (m.version.toNat * 16 + m.kind.code) + options m := by
    rw [headerWord]
    omega
  have small : options m < 2 ^ 4 := Nat.lt_trans (options_lt m) (by decide)
  have low : ∀ i, i < 4 → (headerWord m).testBit i = (options m).testBit i := by
    intro i hi
    rw [shape, Nat.testBit_two_pow_mul_add _ small, if_pos hi]
  rw [low 0 (by decide), low 1 (by decide), low 2 (by decide), options]
  cases m.keepAlive <;> cases m.streaming <;> cases m.relay.isSome <;> decide

/-! ## What is written -/

/-- The first nine bytes of a packet. -/
def fixed (m : Message) : Bytes :=
  Bytes.ofNat 4 m.id.toNat ++ (Bytes.ofNat 4 (headerWord m) ++ [m.command])

/-- The relay of the recipient in a packet. -/
def relayBytes : Option PeerAddress → Bytes
  | some relay => relay.id.bytes
  | none => []

/-- The sections in a packet. -/
def sections (c : Content) : Bytes := c.flatMap Section.bytes

/-- The packet without a signature, as one flat string. -/
def unsigned (m : Message) : Bytes := header m ++ sections m.content

theorem length_fixed (m : Message) : (fixed m).length = 9 := by
  simp [fixed]

/-- The parts of a header, in order. -/
theorem header_eq (m : Message) :
    header m = fixed m ++ (m.sender.encode ++ (m.recipient.id.bytes ++
      (Bytes.ofNat 4 (Slots.pack m.content.slots).toNat ++ relayBytes m.relay))) := by
  show fixed m ++ m.sender.encode ++ m.recipient.id.bytes
    ++ Bytes.ofNat 4 (Slots.pack m.content.slots).toNat ++ relayBytes m.relay = _
  simp only [List.append_assoc]

/-- A header has at most 184 bytes. -/
theorem length_header_le (m : Message) : (header m).length ≤ 184 := by
  have sender := m.sender.length_encode_le
  have relay : (relayBytes m.relay).length ≤ 20 := by
    cases m.relay with
    | none => exact Nat.zero_le _
    | some p => exact Nat.le_of_eq p.id.length_bytes
  rw [header_eq]
  simp only [List.length_append, length_fixed, PeerId.length_bytes, Bytes.length_ofNat]
  omega

namespace Draft

/-- The bytes of a draft. -/
def flat (d : Draft) : Bytes := d.pieces.parts.flatten ++ d.pending

/-- Flushing a draft changes none of its bytes. -/
theorem flatten_flush (d : Draft) : d.flush.parts.flatten = d.flat :=
  Gather.flatten_parts_add d.pieces d.pending

/-- A chunk that is put adds its bytes. -/
theorem flat_put (d : Draft) (ch : Chunk) : (d.put ch).flat = d.flat ++ ch.bytes := by
  cases ch with
  | inline b => exact (List.append_assoc ..).symm
  | blob data =>
      show ((Draft.flush _).add data).parts.flatten ++ [] = _
      rw [Gather.flatten_parts_add, flatten_flush, List.append_nil]
      simp only [flat, Chunk.bytes, List.append_assoc]

theorem laid_put {d : Draft} (laid : d.pieces.Laid) (ch : Chunk) : (d.put ch).pieces.Laid := by
  cases ch with
  | inline b => exact laid
  | blob data => exact Gather.laid_add (Gather.laid_add laid _) data

/-- However the chunks make pieces, their bytes follow one another. -/
theorem foldl_put {chunks : List Chunk} :
    ∀ {d : Draft}, d.pieces.Laid →
      (chunks.foldl put d).pieces.Laid ∧
        (chunks.foldl put d).flat = d.flat ++ chunks.flatMap Chunk.bytes := by
  induction chunks with
  | nil => intro d laid; exact ⟨laid, (List.append_nil _).symm⟩
  | cons ch chunks ih =>
      intro d laid
      obtain ⟨laid', flat'⟩ := ih (laid_put laid ch)
      rw [flat_put, List.append_assoc] at flat'
      exact ⟨laid', flat'⟩

end Draft

/-- The buffer that the writer fills. -/
def filled (m : Message) : Gather :=
  ((m.content.map Section.chunk).foldl Draft.put { pending := header m }).flush

/-- The writer asks for a version that fits and for a chunk from each slot. -/
theorem encodeUnsigned_eq_ok {scheme : SignatureScheme} {m : Message} {u : Gather} :
    encodeUnsigned scheme m = .ok u ↔ m.version ≤ maxVersion ∧
      ∃ chunks, m.content.chunks scheme = .ok chunks ∧
        (chunks.foldl Draft.put { pending := header m }).flush = u := by
  rw [encodeUnsigned]
  by_cases large : maxVersion < m.version
  · rw [if_pos large]
    exact ⟨nofun, fun h => absurd h.1 (UInt32.not_le.mpr large)⟩
  · rw [if_neg large]
    constructor
    · intro h
      cases made : m.content.chunks scheme with
      | error f => rw [made] at h; exact nomatch h
      | ok chunks =>
          rw [made] at h
          exact ⟨UInt32.not_lt.mp large, chunks, rfl, Except.ok.inj h⟩
    · rintro ⟨-, chunks, made, rfl⟩
      rw [made]

/-- A complete message is encoded exactly if its version fits and its sections can be written, and
then as `filled` says. -/
theorem encodeUnsigned_eq_ok_iff {scheme : SignatureScheme} {m : Message} {u : Gather}
    (complete : ∀ s ∈ m.content, s.isComplete) :
    encodeUnsigned scheme m = .ok u ↔
      (m.version ≤ maxVersion ∧ ∀ s ∈ m.content, s.Sendable scheme) ∧ filled m = u := by
  rw [encodeUnsigned_eq_ok]
  constructor
  · rintro ⟨fits, chunks, made, rfl⟩
    obtain ⟨sendable, rfl⟩ := (Content.chunks_eq_ok_iff complete).mp made
    exact ⟨⟨fits, sendable⟩, rfl⟩
  · rintro ⟨⟨fits, sendable⟩, rfl⟩
    exact ⟨fits, _, (Content.chunks_eq_ok_iff complete).mpr ⟨sendable, rfl⟩, rfl⟩

/-- A packet is written without a signature, or with the one that the attached key makes. -/
theorem encode_eq_ok_iff {scheme : SignatureScheme} {m : Message} {c : Gather} :
    encode scheme m = .ok c ↔ ∃ u, encodeUnsigned scheme m = .ok u ∧
      (isSigned m.content = false ∧ u = c ∨
        isSigned m.content = true ∧ ∃ key signature, m.signingKey = some key ∧
          scheme.sign key u.toBytes = .ok signature ∧ u.add signature = c) := by
  rw [encode]
  constructor
  · intro h
    -- each step that fails makes the whole fail, so every step went well
    cases made : encodeUnsigned scheme m with
    | error f => rw [made] at h; exact nomatch h
    | ok u =>
        rw [made] at h
        dsimp only at h
        refine ⟨u, rfl, ?_⟩
        cases signed : isSigned m.content with
        | false =>
            rw [signed, if_neg Bool.false_ne_true] at h
            exact .inl ⟨rfl, Except.ok.inj h⟩
        | true =>
            rw [signed, if_pos rfl] at h
            cases key : m.signingKey with
            | none => rw [key] at h; exact nomatch h
            | some k =>
                rw [key] at h
                dsimp only at h
                cases signs : scheme.sign k u.toBytes with
                | error f => rw [signs] at h; exact nomatch h
                | ok signature =>
                    rw [signs] at h
                    exact .inr ⟨rfl, k, signature, rfl, signs, Except.ok.inj h⟩
  · rintro ⟨u, made, ⟨plain, rfl⟩ | ⟨signed, key, signature, attached, signs, rfl⟩⟩
    · rw [made]
      dsimp only
      rw [plain, if_neg Bool.false_ne_true]
    · rw [made]
      dsimp only
      rw [signed, if_pos rfl, attached]
      dsimp only
      rw [signs]

/-- The packet of a message is laid out well. -/
theorem laid_filled (m : Message) : (filled m).Laid :=
  Gather.laid_add (Draft.foldl_put Gather.laid_empty).1 _

/-- The buffer holds the flat packet. -/
theorem flatten_filled (m : Message) : (filled m).parts.flatten = unsigned m := by
  rw [filled, Draft.flatten_flush, (Draft.foldl_put Gather.laid_empty).2, List.flatMap_map]
  rfl

/-- A packet is far shorter than positions can tell. -/
theorem length_unsigned_lt {scheme : SignatureScheme} {m : Message}
    (wellFormed : m.content.WellFormed) (sendable : ∀ s ∈ m.content, s.Sendable scheme)
    (short : ∀ s ∈ m.content, s.Short) : (unsigned m).length < 2 ^ 40 := by
  have header := length_header_le m
  have count : m.content.length ≤ 8 := by
    have fits := wellFormed.fits
    rwa [Content.kinds, List.length_map] at fits
  have each : (sections m.content).length ≤ m.content.length * 2 ^ 33 :=
    length_flatMap_le fun s hs => Section.length_bytes_le (sendable s hs) (short s hs)
  rw [unsigned, List.length_append]
  omega

/-- The buffer, and a short piece after it, is read as one flat string. -/
theorem toBytes_filled_add {scheme : SignatureScheme} {m : Message}
    (wellFormed : m.content.WellFormed) (sendable : ∀ s ∈ m.content, s.Sendable scheme)
    (short : ∀ s ∈ m.content, s.Short) {tail : Bytes} (little : tail.length ≤ 64) :
    ((filled m).add tail).toBytes = unsigned m ++ tail := by
  have flat : ((filled m).add tail).parts.flatten = unsigned m ++ tail := by
    rw [Gather.flatten_parts_add, flatten_filled]
  have far := length_unsigned_lt wellFormed sendable short
  rw [Gather.toBytes_eq (Gather.laid_add (laid_filled m) tail), flat]
  rw [flat, List.length_append, Gather.addressSpace]
  omega

/-- The bytes of a packet up to its signature are those of `unsigned`. -/
theorem toBytes_filled {scheme : SignatureScheme} {m : Message}
    (wellFormed : m.content.WellFormed) (sendable : ∀ s ∈ m.content, s.Sendable scheme)
    (short : ∀ s ∈ m.content, s.Short) : (filled m).toBytes = unsigned m :=
  (@toBytes_filled_add scheme m wellFormed sendable short [] (Nat.zero_le _)).trans
    (List.append_nil _)

/-! ## What is read -/

/-- The header word among the first nine bytes. -/
def wordOf (first : Bytes) : Nat := Bytes.toNat ((first.drop 4).take 4)

/-- The identity of the recipient's relay, if the header word tells of one. -/
def relayAfter (word : Nat) : Reader (Option PeerId) :=
  if word.testBit 2 then some <$> PeerId.reader else pure none

/-- The message that the parts of its packet make. -/
def assembled (sender recipient : SocketAddress) (udp : Bool) (first : Bytes) (kind : MessageKind)
    (source : PeerAddress) (target : PeerId) (relay : Option PeerId) (content : Content) :
    Message where
  id := UInt32.ofNat (Bytes.toNat (first.take 4))
  version := UInt32.ofNat (wordOf first / 256)
  kind := kind
  command := UInt8.ofNat (Bytes.toNat (first.drop 8))
  sender := source
  recipient := .ofSocket target recipient
  relay := relay.map fun id => .ofSocket id recipient
  keepAlive := (wordOf first).testBit 0
  streaming := (wordOf first).testBit 1
  content := content
  senderSocket := some sender
  recipientSocket := some recipient
  udp := udp

/-- Reads what follows the first nine bytes. -/
def partsReader (scheme : SignatureScheme) (sender recipient : SocketAddress) (udp : Bool)
    (first : Bytes) (kind : MessageKind) : Reader Message := do
  let source ← PeerAddress.reader sender.ip
  let target ← PeerId.reader
  let packed ← Reader.word 4
  let relay ← relayAfter (wordOf first)
  let content ← Content.reader scheme false (Slots.unpack (UInt32.ofNat packed)).toList []
  return assembled sender recipient udp first kind source target relay content

/-- Reading a packet goes part by part. -/
theorem unsignedReader_eq (scheme : SignatureScheme) (sender recipient : SocketAddress)
    (udp : Bool) :
    unsignedReader scheme sender recipient udp = Reader.take 9 >>= fun first =>
      match MessageKind.ofCode? (wordOf first / 16 % 16) with
      | none => Reader.malformed (.unknownMessageKind (wordOf first / 16 % 16))
      | some kind => partsReader scheme sender recipient udp first kind := by
  unfold unsignedReader partsReader relayAfter wordOf
  congr 1
  funext first
  dsimp only
  cases MessageKind.ofCode? _ with
  | none => rfl
  | some kind =>
      cases (Bytes.toNat ((first.drop 4).take 4)).testBit 2 <;> rfl

/-- A message is complete exactly if no bytes are left. -/
theorem complete_eq_ok_iff {m m' : Message} {rest : Bytes} :
    complete m rest = .ok m' ↔ m = m' ∧ rest = [] := by
  rw [complete]
  cases rest with
  | nil => exact ⟨fun h => ⟨Except.ok.inj h, rfl⟩, fun h => congrArg Except.ok h.1⟩
  | cons x rest => exact ⟨nofun, fun h => nomatch h.2⟩

/-- What follows the sections of a packet that is read: nothing, or one good signature. -/
theorem decode_eq_ok_iff {scheme : SignatureScheme} {packet : Bytes}
    {sender recipient : SocketAddress} {udp : Bool} {m' : Message} :
    decode scheme packet sender recipient udp = .ok m' ↔
      ∃ m rest, (unsignedReader scheme sender recipient udp).run packet = .ok (m, rest) ∧
        (isSigned m.content = false ∧ m = m' ∧ rest = [] ∨
          isSigned m.content = true ∧ { m with verified := true } = m' ∧
            rest.length = scheme.signatureSize ∧
            scheme.verify (m.content.publicKeys.headD [])
              (packet.take (packet.length - rest.length)) rest = .ok true) := by
  rw [decode]
  constructor
  · intro h
    cases read : (unsignedReader scheme sender recipient udp).run packet with
    | error f => rw [read] at h; exact nomatch h
    | ok step =>
        obtain ⟨m, rest⟩ := step
        rw [read] at h
        dsimp only at h
        refine ⟨m, rest, rfl, ?_⟩
        cases signed : isSigned m.content with
        | false =>
            rw [signed, if_neg Bool.false_ne_true] at h
            exact .inl ⟨rfl, complete_eq_ok_iff.mp h⟩
        | true =>
            rw [signed, if_pos rfl] at h
            cases taken : (Reader.take scheme.signatureSize).run rest with
            | error f => rw [taken] at h; exact nomatch h
            | ok step =>
                obtain ⟨signature, rest'⟩ := step
                rw [taken] at h
                dsimp only at h
                obtain ⟨width, rfl⟩ := run_take_eq_ok.mp taken
                split at h
                · exact nomatch h
                · exact nomatch h
                · rename_i accepted
                  -- nothing may follow the signature
                  obtain ⟨rfl, rfl⟩ := complete_eq_ok_iff.mp h
                  rw [List.append_nil] at accepted ⊢
                  exact .inr ⟨rfl, rfl, width, accepted⟩
  · rintro ⟨m, rest, read, ⟨plain, rfl, rfl⟩ | ⟨signed, rfl, width, accepted⟩⟩
    · rw [read]
      dsimp only
      rw [plain, if_neg Bool.false_ne_true]
      rfl
    · have taken : (Reader.take scheme.signatureSize).run rest = .ok (rest, []) :=
        run_take_eq_ok.mpr ⟨width, (List.append_nil rest).symm⟩
      rw [read]
      dsimp only
      rw [signed, if_pos rfl, taken]
      dsimp only
      rw [accepted]
      rfl

/-- The message that comes out at the other end of a packet, before its signature counts. -/
def received (sender recipient : SocketAddress) (udp : Bool) (m : Message) : Message where
  id := m.id
  version := m.version
  kind := m.kind
  command := m.command
  sender := { m.sender.carried with ip := sender.ip }
  recipient := .ofSocket m.recipient.id recipient
  relay := m.relay.map fun relay => .ofSocket relay.id recipient
  keepAlive := m.keepAlive
  streaming := m.streaming
  content := Content.carried m.content
  senderSocket := some sender
  recipientSocket := some recipient
  udp := udp

/-- The word of a header is read back. -/
theorem wordOf_fixed {m : Message} (fits : m.version ≤ maxVersion) :
    wordOf (fixed m) = headerWord m := by
  rw [wordOf, fixed, List.drop_left' (Bytes.length_ofNat ..),
    List.take_left' (Bytes.length_ofNat ..)]
  exact Bytes.toNat_ofNat_of_lt (headerWord_lt fits)

/-- The parts that are read make the message that comes out. -/
theorem assembled_eq {m : Message} (fits : m.version ≤ maxVersion)
    (sender recipient : SocketAddress) (udp : Bool) :
    assembled sender recipient udp (fixed m) m.kind { m.sender.carried with ip := sender.ip }
        m.recipient.id (m.relay.map PeerAddress.id) (Content.carried m.content)
      = received sender recipient udp m := by
  obtain ⟨keepAlive, streaming, -⟩ := testBit_headerWord m
  have id : UInt32.ofNat (Bytes.toNat ((fixed m).take 4)) = m.id := by
    rw [fixed, List.take_left' (Bytes.length_ofNat ..), Bytes.toNat_ofNat_of_lt m.id.toNat_lt,
      UInt32.ofNat_toNat]
  have version : UInt32.ofNat (headerWord m / 256) = m.version := by
    rw [headerWord_div, UInt32.ofNat_toNat]
  have command : UInt8.ofNat (Bytes.toNat ((fixed m).drop 8)) = m.command := by
    rw [fixed, ← List.append_assoc, List.drop_left' (by simp), toNat_singleton, UInt8.ofNat_toNat]
  rw [assembled, wordOf_fixed fits, id, version, command, keepAlive, streaming, Option.map_map]
  rfl

/-- The identity of the relay is read back if the options tell of it. -/
theorem reads_relay (m : Message) (word : Nat) (told : word.testBit 2 = m.relay.isSome) :
    (relayAfter word).Reads (relayBytes m.relay) (m.relay.map PeerAddress.id) := by
  rw [relayAfter, told]
  cases m.relay with
  | none => exact reads_pure none
  | some relay => exact Reads.bind_pure (PeerId.reads_bytes relay.id) rfl

/-- The packet of a message is read back. -/
theorem reads_unsigned {scheme : SignatureScheme} {m : Message} (fits : m.version ≤ maxVersion)
    (wellFormed : m.content.WellFormed) (sendable : ∀ s ∈ m.content, s.Sendable scheme)
    (short : ∀ s ∈ m.content, s.Short) (sender recipient : SocketAddress) (udp : Bool) :
    (unsignedReader scheme sender recipient udp).Reads (unsigned m)
      (received sender recipient udp m) := by
  obtain ⟨-, -, relay⟩ := testBit_headerWord m
  -- one reader after the other takes its part of the packet
  rw [unsignedReader_eq, unsigned, header_eq]
  simp only [List.append_assoc]
  refine Reads.bind (reads_take (length_fixed m)) ?_
  rw [wordOf_fixed fits, headerWord_kind, MessageKind.ofCode?_code]
  show (partsReader scheme sender recipient udp (fixed m) m.kind).Reads _ _
  refine Reads.bind (PeerAddress.reads_encode m.sender sender.ip) ?_
  refine Reads.bind (PeerId.reads_bytes m.recipient.id) ?_
  refine Reads.bind (reads_word (UInt32.toNat_lt _)) ?_
  rw [UInt32.ofNat_toNat, Slots.unpack_pack, wordOf_fixed fits]
  refine Reads.bind (reads_relay m _ relay) ?_
  refine Reads.bind_pure (Content.reads_bytes wellFormed sendable short) ?_
  rw [assembled_eq fits]

end Packet

end PeerMessaging
