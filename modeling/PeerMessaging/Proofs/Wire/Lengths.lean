import PeerMessaging.Proofs.Wire.Pieces
import PeerMessaging.Proofs.Wire.Streams

/-!
# What a length of four bytes tells

A payload stands in a packet behind its length, and a packet stands on a stream behind its own.
Both lengths are words of four bytes, and what does not fit them is cut off without a word: the
length that is written is the number of the bytes modulo `2 ^ 32`. Nothing asks before whether a
payload fits. A stream refuses what is above its limit, but the limit may be above what four bytes
tell. So a length tells the truth exactly if there are fewer than `2 ^ 32` bytes, a packet is given
back whole exactly then, and a stream refuses all that it could not tell exactly if its limit is
below that number.
-/

namespace PeerMessaging

/-- A word of four bytes tells the number of some bytes as far as it can. -/
structure Tells (lead data : Bytes) : Prop where
  width : lead.length = 4
  value : Bytes.toNat lead = data.length % 2 ^ 32
  exact_iff : Bytes.toNat lead = data.length ↔ data.length < 2 ^ 32

/-- A length of four bytes tells the number of bytes modulo `2 ^ 32`. -/
theorem tells_ofNat (data : Bytes) : Tells (Bytes.ofNat 4 data.length) data := by
  have value : Bytes.toNat (Bytes.ofNat 4 data.length) = data.length % 2 ^ 32 :=
    Bytes.toNat_ofNat 4 data.length
  refine ⟨Bytes.length_ofNat 4 _, value, ?_⟩
  rw [value]
  exact ⟨fun whole => whole ▸ Nat.mod_lt _ (by decide), Nat.mod_eq_of_lt⟩

/-! ## Payloads in a packet -/

/-- Each result of a walk that may fail stands where its argument stood. -/
theorem exists_split_of_mapM {α β : Type} {f : α → Except Failure β} {as : List α} :
    ∀ {i : Nat} {a : α} {bs : List β}, as.mapM f = .ok bs → as[i]? = some a →
      ∃ b after, f a = .ok b ∧ bs = bs.take i ++ b :: after := by
  induction as with
  | nil => intro i a bs _ there; cases there
  | cons first as ih =>
      intro i a bs walked there
      obtain ⟨b, others, own, rest, rfl⟩ := Content.mapM_cons_eq_ok.mp walked
      cases i with
      | zero =>
          obtain rfl := Option.some.inj there
          exact ⟨b, others, own, rfl⟩
      | succ i =>
          obtain ⟨b', after, own', split⟩ := ih rest there
          exact ⟨b', after, own', congrArg (b :: ·) split⟩

/-- The payload to which a slot with a reference leads. -/
def Content.payloadAt? (c : Content) (r : Reference) : Option Bytes :=
  match r.kind with
  | .buffer => c.buffers[r.index]?
  | .foreign kind => (c.foreignData kind)[r.index]?
  | _ => none

theorem valueAt_of_some {α : Type} {values : List α} {r : Reference} {v : α}
    (found : values[r.index]? = some v) : valueAt values r = .ok v := by
  rw [valueAt, found]

/-- A payload is written behind its length, whatever its length is. -/
theorem Content.chunk_of_payload {scheme : SignatureScheme} {c : Content} {r : Reference}
    {data : Bytes} (found : c.payloadAt? r = some data) : c.chunk scheme r = .ok (.blob data) := by
  obtain ⟨index, kind⟩ := r
  cases kind with
  | buffer =>
      show (valueAt c.buffers _ >>= _) = _
      rw [valueAt_of_some (r := ⟨index, .buffer⟩) found]
      rfl
  | foreign kind =>
      show (valueAt (c.foreignData kind) _ >>= _) = _
      rw [valueAt_of_some (r := ⟨index, .foreign kind⟩) found]
      rfl
  | _ => cases found

namespace Packet

variable {scheme : SignatureScheme} {m : Message} {packet : Gather}

/-- A packet is the header, the chunks of the slots one after the other, and a signature if there
is one. -/
theorem flatten_of_encode (encoded : encode scheme m = .ok packet) :
    ∃ chunks tail, m.content.chunks scheme = .ok chunks ∧
      packet.parts.flatten = header m ++ (chunks.flatMap Chunk.bytes ++ tail) := by
  obtain ⟨u, made, signs⟩ := encode_eq_ok_iff.mp encoded
  obtain ⟨-, chunks, written, rfl⟩ := encodeUnsigned_eq_ok.mp made
  have flat : (chunks.foldl Draft.put { pending := header m }).flush.parts.flatten
      = header m ++ chunks.flatMap Chunk.bytes := by
    rw [Draft.flatten_flush, (Draft.foldl_put Gather.laid_empty).2]
    rfl
  rcases signs with ⟨-, rfl⟩ | ⟨-, -, signature, -, -, rfl⟩
  · exact ⟨chunks, [], written, by rw [flat, List.append_nil]⟩
  · refine ⟨chunks, signature, written, ?_⟩
    rw [Gather.flatten_parts_add, flat, List.append_assoc]

/-- Where the payload of a slot stands in a packet, and what its length tells. -/
theorem leads_of_encode (encoded : encode scheme m = .ok packet) {i : Nat} {r : Reference}
    {data : Bytes} (slot : m.content.references[i]? = some r)
    (found : m.content.payloadAt? r = some data) :
    ∃ chunks lead after, m.content.chunks scheme = .ok chunks ∧
      packet.parts.flatten = header m ++ ((chunks.take i).flatMap Chunk.bytes ++
        (lead ++ (data ++ after))) ∧ Tells lead data := by
  obtain ⟨chunks, tail, written, flat⟩ := flatten_of_encode encoded
  obtain ⟨ch, later, own, split⟩ := exists_split_of_mapM written slot
  obtain rfl := Except.ok.inj (own.symm.trans (Content.chunk_of_payload found))
  refine ⟨chunks, _, later.flatMap Chunk.bytes ++ tail, written, ?_, tells_ofNat data⟩
  -- the length and the data are the bytes of this slot's chunk
  have bytes : chunks.flatMap Chunk.bytes = (chunks.take i).flatMap Chunk.bytes ++
      (Bytes.ofNat 4 data.length ++ data ++ later.flatMap Chunk.bytes) := by
    conv => lhs; rw [split]
    exact List.flatMap_append
  rw [flat, bytes]
  simp only [List.append_assoc]

/-- A section with a payload has all that its slot needs. -/
theorem writable_of_payload (scheme : SignatureScheme) {s : Section} {data : Bytes}
    (payload : s.payload? = some data) :
    s.isComplete = true ∧ s.Sendable scheme ∧ s.kind ≠ .signedPublicKey := by
  cases s with
  | buffer b => exact ⟨rfl, trivial, nofun⟩
  | foreign kind b => exact ⟨rfl, trivial, nofun⟩
  | _ => cases payload

/-- A last section signs only if it is the first one as well. -/
theorem isSigned_concat {c : Content} {s : Section} (unsigned : s.kind ≠ .signedPublicKey) :
    isSigned (c ++ [s]) = isSigned c := by
  cases c with
  | nil => exact beq_eq_false_iff_ne.mpr fun first => unsigned (Option.some.inj first)
  | cons e c => rfl

/-- No payload is refused for its length: a message that can be written can still be written with
one more payload, which may be of any length. -/
theorem encode_of_payload (keys : scheme.HasKeys) (writable : m.Writable)
    (encodable : ∃ packet, encode scheme m = .ok packet) {s : Section} {data : Bytes}
    (payload : s.payload? = some data) {m' : Message} (added : m.add s = (.ok (), m')) :
    ∃ packet, encode scheme m' = .ok packet := by
  obtain ⟨own, sends, unsigned⟩ := writable_of_payload scheme payload
  obtain ⟨appended, rest⟩ := Message.add_eq_ok added
  obtain ⟨-, longer⟩ := Content.append_eq_ok_iff.mp appended
  obtain ⟨packet, encoded⟩ := encodable
  obtain ⟨u, made, signs⟩ := encode_eq_ok_iff.mp encoded
  obtain ⟨⟨fits, sendable⟩, -⟩ := (encodeUnsigned_eq_ok_iff writable.complete).mp made
  have of_both : ∀ {p : Section → Prop}, (∀ e ∈ m.content, p e) → p s → ∀ e ∈ m'.content, p e := by
    intro p all last
    rw [← longer]
    exact List.forall_mem_append.mpr ⟨all, List.forall_mem_singleton.mpr last⟩
  have version : m'.version ≤ maxVersion := by rw [rest]; exact fits
  have made' := (encodeUnsigned_eq_ok_iff (of_both writable.complete own)).mpr
    ⟨⟨version, of_both sendable sends⟩, rfl⟩
  have same : isSigned m'.content = isSigned m.content := longer ▸ isSigned_concat unsigned
  rcases signs with ⟨plain, -⟩ | ⟨signed, key, signature, attached, signs, -⟩
  · exact ⟨_, encode_eq_ok_iff.mpr ⟨_, made', .inl ⟨same.trans plain, rfl⟩⟩⟩
  · -- the same key signs the longer packet
    obtain ⟨signature', signs'⟩ :
        ∃ signature', scheme.sign key (filled m').toBytes = .ok signature' :=
      (keys.sign_iff key _).mpr ((keys.sign_iff key _).mp ⟨_, signs⟩)
    have attached' : m'.signingKey = some key := by rw [rest]; exact attached
    exact ⟨_, encode_eq_ok_iff.mpr
      ⟨_, made', .inr ⟨same.trans signed, key, signature', attached', signs', rfl⟩⟩⟩

end Packet

/-! ## Packets on a stream -/

namespace Framing

variable {f : Framing} {g : Gather} {stream out : Bytes}

/-- A packet is put on a stream unless it is above the limit. -/
theorem encode_eq_ok_iff (laid : g.Laid) : f.encode g stream = .ok out ↔
    g.size ≤ f.maxSize ∧ stream ++ frame g.parts.flatten = out := by
  rw [encode, push]
  by_cases large : f.maxSize < g.size
  · rw [if_pos large]
    constructor
    · intro written
      cases written
    · exact fun h => absurd h.1 (Nat.not_le.mpr large)
  · rw [if_neg large]
    dsimp only
    rw [foldl_append, Gather.size_eq laid, List.append_assoc]
    have small : g.parts.flatten.length ≤ f.maxSize := by
      rw [← Gather.size_eq laid]
      exact Nat.le_of_not_lt large
    exact ⟨fun h => ⟨small, Except.ok.inj h⟩, fun h => congrArg Except.ok h.2⟩

/-- What is given back of bytes behind their length: as many as the length tells. -/
theorem decode_frame {data : Bytes} (fits : data.length ≤ f.maxSize) (rest : Bytes) :
    f.decode (frame data ++ rest) = .ok (some (data.take (data.length % 2 ^ 32),
      data.drop (data.length % 2 ^ 32) ++ rest)) := by
  have told : Bytes.ofNat 4 data.length = Bytes.ofNat 4 (data.length % 2 ^ 32) := by
    conv => lhs; rw [← Nat.mod_add_div' data.length (2 ^ 32)]
    exact Bytes.ofNat_add_mul 4 _ _
  have less : data.length % 2 ^ 32 ≤ data.length := Nat.mod_le _ _
  rw [decode, frame, told, List.append_assoc, pull_size (Nat.mod_lt _ (by decide)),
    if_neg (Nat.not_lt.mpr (Nat.le_trans less fits)),
    if_neg (by rw [List.length_append]; omega), List.take_append_of_le_length less,
    List.drop_append_of_le_length less]

/-- Bytes come back whole exactly if their length is told in full. -/
theorem decode_frame_eq_iff {data : Bytes} (fits : data.length ≤ f.maxSize) (rest : Bytes) :
    f.decode (frame data ++ rest) = .ok (some (data, rest)) ↔ data.length < 2 ^ 32 := by
  rw [decode_frame fits]
  constructor
  · intro whole
    have taken := congrArg Prod.fst (Option.some.inj (Except.ok.inj whole))
    have short := congrArg List.length taken
    rw [List.length_take, Nat.min_eq_left (Nat.mod_le _ _)] at short
    exact short ▸ Nat.mod_lt _ (by decide)
  · intro small
    rw [Nat.mod_eq_of_lt small, List.take_length, List.drop_length, List.nil_append]

/-- The buffer of one piece. -/
theorem single (data : Bytes) : (Gather.empty.add data).Reachable ∧
    (Gather.empty.add data).parts.flatten = data :=
  ⟨⟨Gather.defaultLimit, [.add data], rfl⟩, Gather.flatten_parts_add _ _⟩

/-- All that a length could not tell is refused exactly if the limit is below it. -/
theorem refuses_iff : (∀ g : Gather, g.Reachable → 2 ^ 32 ≤ g.size →
    ∀ stream, ∃ e, f.encode g stream = .error e) ↔ f.maxSize < 2 ^ 32 := by
  constructor
  · intro refuses
    obtain ⟨reachable, flat⟩ := single (Bytes.solid (2 ^ 32))
    have size : (Gather.empty.add (Bytes.solid (2 ^ 32))).size = 2 ^ 32 := by
      rw [Gather.size_eq reachable.laid, flat, Bytes.length_solid]
    obtain ⟨e, refused⟩ := refuses _ reachable (Nat.le_of_eq size.symm) []
    -- a limit that is not below would have let these bytes through
    refine Nat.lt_of_not_le fun above => ?_
    have written : ∃ out, f.encode (Gather.empty.add (Bytes.solid (2 ^ 32))) [] = .ok out :=
      ⟨_, (encode_eq_ok_iff reachable.laid).mpr ⟨Nat.le_trans (Nat.le_of_eq size) above, rfl⟩⟩
    obtain ⟨out, written⟩ := written
    rw [refused] at written
    cases written
  · intro small g reachable large stream
    cases written : f.encode g stream with
    | error e => exact ⟨e, rfl⟩
    | ok out =>
        have fits := ((encode_eq_ok_iff reachable.laid).mp written).1
        omega

end Framing

/-! ## Both lengths -/

/-- What the lengths in packets tell. -/
structure Packet.Measures (scheme : SignatureScheme) : Prop where
  leads : ∀ (m : Message) (packet : Gather), encode scheme m = .ok packet →
    ∀ (i : Nat) (r : Reference) (data : Bytes), m.content.references[i]? = some r →
      m.content.payloadAt? r = some data →
      ∃ chunks lead after, m.content.chunks scheme = .ok chunks ∧
        packet.parts.flatten = header m ++ ((chunks.take i).flatMap Chunk.bytes ++
          (lead ++ (data ++ after))) ∧ Tells lead data
  unrefused : scheme.HasKeys → ∀ m : Message, m.Writable →
    (∃ packet, encode scheme m = .ok packet) → ∀ (s : Section) (data : Bytes),
      s.payload? = some data → ∀ m' : Message, m.add s = (.ok (), m') →
        ∃ packet, encode scheme m' = .ok packet

/-- What the lengths on a stream with some limit tell. -/
structure Framing.Measures (f : Framing) : Prop where
  leads : ∀ g : Gather, g.Reachable → ∀ stream out, f.encode g stream = .ok out →
    ∃ lead, out = stream ++ (lead ++ g.parts.flatten) ∧ Tells lead g.parts.flatten
  whole_iff : ∀ g : Gather, g.Reachable → ∀ out, f.encode g [] = .ok out → ∀ rest,
    (f.decode (out ++ rest) = .ok (some (g.parts.flatten, rest)) ↔
      g.parts.flatten.length < 2 ^ 32)
  refuses_iff : (∀ g : Gather, g.Reachable → 2 ^ 32 ≤ g.size →
    ∀ stream, ∃ e, f.encode g stream = .error e) ↔ f.maxSize < 2 ^ 32

/-- **Lengths are told modulo `2 ^ 32`**, in the packets of every message (`Packet.Measures`) and on
a stream of every limit (`Framing.Measures`). -/
theorem lengths_told (scheme : SignatureScheme) (f : Framing) :
    Packet.Measures scheme ∧ f.Measures where
  left := {
    leads := fun m packet encoded i r data slot found =>
      Packet.leads_of_encode encoded slot found
    unrefused := fun keys m writable encodable s data payload m' added =>
      Packet.encode_of_payload keys writable encodable payload added }
  right := {
    leads := by
      intro g reachable stream out written
      obtain ⟨-, rfl⟩ := (Framing.encode_eq_ok_iff reachable.laid).mp written
      exact ⟨_, rfl, tells_ofNat _⟩
    whole_iff := by
      intro g reachable out written rest
      obtain ⟨fits, rfl⟩ := (Framing.encode_eq_ok_iff reachable.laid).mp written
      rw [Gather.size_eq reachable.laid] at fits
      exact Framing.decode_frame_eq_iff fits rest
    refuses_iff := Framing.refuses_iff }

/-- A message with one buffer. -/
def holding (data : Bytes) : Message := { content := [.buffer data] }

/-- The packet of a message with one buffer is the header, the length and the buffer. -/
theorem encode_holding (data : Bytes) : ∃ packet,
    Packet.encode Ed25519.scheme (holding data) = .ok packet ∧
      packet.parts.flatten =
        Packet.header (holding data) ++ (Bytes.ofNat 4 data.length ++ data) := by
  refine ⟨_, rfl, ?_⟩
  rw [List.reverse_singleton, Packet.Draft.flatten_flush,
    (Packet.Draft.foldl_put Gather.laid_empty).2]
  simp [Packet.Draft.flat, Gather.empty, Gather.ofLimit, Gather.parts, Chunk.bytes]

/-- The length before `2 ^ 32` zeros says that there are none, in a packet and on a stream, and
from the stream an empty packet is given back. -/
theorem zeros_untold :
    Bytes.toNat [0, 0, 0, 0] ≠ (Bytes.solid (2 ^ 32)).length ∧
    (∃ packet, Packet.encode Ed25519.scheme (holding (Bytes.solid (2 ^ 32))) = .ok packet ∧
      packet.parts.flatten = Packet.header (holding (Bytes.solid (2 ^ 32))) ++
        ([0, 0, 0, 0] ++ Bytes.solid (2 ^ 32))) ∧
    ∃ out, (Framing.mk (2 ^ 64 - 1)).encode (Gather.empty.add (Bytes.solid (2 ^ 32))) []
        = .ok out ∧
      (Framing.mk (2 ^ 64 - 1)).decode out = .ok (some ([], Bytes.solid (2 ^ 32))) := by
  have length : (Bytes.solid (2 ^ 32)).length = 2 ^ 32 := Bytes.length_solid _
  -- nothing below looks into the zeros, only at how many there are
  generalize Bytes.solid (2 ^ 32) = data at *
  have lead : Bytes.ofNat 4 data.length = [0, 0, 0, 0] := by
    rw [length]
    decide
  refine ⟨by rw [length]; decide, ?_, ?_⟩
  · obtain ⟨packet, encoded, flat⟩ := encode_holding data
    rw [lead] at flat
    exact ⟨packet, encoded, flat⟩
  · obtain ⟨reachable, flat⟩ := Framing.single data
    have fits : data.length ≤ (Framing.mk (2 ^ 64 - 1)).maxSize := by
      rw [length]
      decide
    have size := Gather.size_eq reachable.laid
    rw [flat] at size
    refine ⟨_, (Framing.encode_eq_ok_iff reachable.laid).mpr ⟨size ▸ fits, rfl⟩, ?_⟩
    have none : data.length % 2 ^ 32 = 0 := by rw [length, Nat.mod_self]
    have given := Framing.decode_frame fits []
    rw [none, List.append_nil, List.append_nil] at given
    rw [flat, List.nil_append]
    exact given

end PeerMessaging
