import PeerMessaging.Proofs.Wire.Canonical
import PeerMessaging.Proofs.Wire.RoundTrip

/-!
# A checked message stands in its packet from the first byte to the last

Whether a packet asks for a signature, and whose it should be, can be told from its first bytes
alone: the leading hexadecimal digit of the word with the kinds of the slots, and the key in the
first slot. The whole reader goes through the same bytes and more, so it agrees. A packet that is
accepted as checked is then its message, spelled out with all sections, and a signature by that
key over all of it; without such a signature no packet that asks for one is accepted.
-/

namespace PeerMessaging

open Bytes Reader

namespace Packet

variable {scheme : SignatureScheme} {origin destination : SocketAddress} {udp : Bool}

/-- Reads up to the kinds of the slots. Gives the header word and the word of the kinds. -/
def wordsReader (origin : SocketAddress) : Reader (Nat × Nat) := do
  let first ← Reader.take 9
  let _ ← PeerAddress.reader origin.ip
  let _ ← PeerId.reader
  let packed ← Reader.word 4
  return (wordOf first, packed)

/-- Reads up to the key that stands first among the sections, whatever the sections are. -/
def signerReader (origin : SocketAddress) : Reader Bytes := do
  let words ← wordsReader origin
  let _ ← relayAfter words.1
  let length ← Reader.word 2
  Reader.take length

/-- The leading digit of the word of the kinds asks for a signature. -/
def AsksForSignature (origin : SocketAddress) (p : Bytes) : Prop :=
  ∃ words rest, (wordsReader origin).run p = .ok (words, rest) ∧
    words.2 / 16 ^ 7 = ContentKind.signedPublicKey.code

/-- The packet ends with a signature over all that stands before it, by the key in the first
slot. -/
structure Endorsed (scheme : SignatureScheme) (origin : SocketAddress) (p key d s : Bytes) :
    Prop where
  whole : p = d ++ s
  size : s.length = scheme.signatureSize
  signer : ∃ rest, (signerReader origin).run p = .ok (key, rest)
  good : scheme.verify key d s = .ok true

/-- What is known of a packet that was accepted. -/
structure Vouched (scheme : SignatureScheme) (origin : SocketAddress) (p : Bytes) (m : Message) :
    Prop where
  asked : m.verified = true ↔ AsksForSignature origin p
  firstSlot : m.verified = true ↔ m.content.slots.toList.head? = some .signedPublicKey
  covered : m.verified = true → ∃ key d s, Endorsed scheme origin p key d s ∧
    Spells (spare m) d (unsigned m) ∧ m.content.head? = some (.signedPublicKey key) ∧
    m.content.publicKeys[0]? = some key

/-! ## The first slot -/

/-- Content is signed exactly if its first slot is the key of a signature. -/
theorem isSigned_eq_true_iff {c : Content} :
    isSigned c = true ↔ c.slots.toList.head? = some .signedPublicKey := by
  rw [isSigned, beq_iff_eq, Content.slots, Vector.toList_ofFn]
  cases c with
  | nil => exact iff_of_false (by decide) (by decide)
  | cons s c => exact Iff.rfl

/-- The kind in the first slot is the leading digit. -/
theorem unpack_first_iff {packed : Nat} (small : packed < 256 ^ 4) (k : ContentKind) :
    (Slots.unpack (UInt32.ofNat packed)).toList.head? = some k ↔ packed / 16 ^ 7 = k.code := by
  have digit := Slots.code_unpack (UInt32.ofNat packed) (i := 0) (by decide)
  rw [UInt32.toNat_ofNat', @Bytes.mod_bits 4 32 _ small (by decide)] at digit
  have lead : packed / 16 ^ 7 % 16 = packed / 16 ^ 7 := Nat.mod_eq_of_lt (by omega)
  rw [List.head?_eq_getElem?, Vector.getElem?_toList, Vector.getElem?_eq_getElem (by decide),
    Option.some_inj, ← lead, ← digit]
  constructor
  · intro h
    rw [h]
  · intro h
    have known := ContentKind.ofCode?_code (Slots.unpack (UInt32.ofNat packed))[0]
    rw [h, ContentKind.ofCode?_code] at known
    exact (Option.some.inj known).symm

/-- A key that is checked is read as any bytes behind their length. -/
theorem run_key_of_run_publicKey {b key rest : Bytes}
    (h : (Section.publicKeyReader scheme).run b = .ok (key, rest)) :
    (Reader.word 2 >>= Reader.take).run b = .ok (key, rest) := by
  obtain ⟨-, short, rfl⟩ := Section.eq_of_run_publicKey h
  rw [List.append_assoc]
  exact run_bind_eq_ok.mpr ⟨key.length, key ++ rest, run_word_eq_ok.mpr ⟨short, rfl⟩,
    run_take_append rfl rest⟩

/-- The key of a first slot that asks for a signature is read before anything else, and it stays
the first section. -/
theorem head_of_run {ks : List ContentKind} {b rest : Bytes} {c : Content}
    (h : (Content.reader scheme false (.signedPublicKey :: ks) []).run b = .ok (c, rest)) :
    ∃ key mid, (Reader.word 2 >>= Reader.take).run b = .ok (key, mid) ∧
      c.head? = some (.signedPublicKey key) := by
  rw [Content.reader, if_neg (by decide)] at h
  obtain ⟨s, mid, first, next⟩ := run_bind_eq_ok.mp h
  obtain ⟨key, read, rfl⟩ := run_bind_pure_eq_ok.mp first
  obtain ⟨longer, mid', second, last⟩ := run_bind_eq_ok.mp next
  obtain ⟨appended, rfl⟩ := run_ofExcept_eq_ok.mp second
  obtain rfl : [Section.signedPublicKey key] = longer := Except.ok.inj appended
  -- the other slots only add sections behind it
  have wellFormed : Content.WellFormed [.signedPublicKey key] :=
    Content.wellFormed_nil.of_append (s := .signedPublicKey key) rfl
  obtain ⟨new, rfl, -⟩ := Content.eq_of_run wellFormed last
  exact ⟨key, mid, run_key_of_run_publicKey read, rfl⟩

/-! ## The whole reader agrees -/

/-- What the whole reader reads of a packet starts as the packet itself tells. -/
theorem run_words_of_run {p rest : Bytes} {m : Message}
    (h : (unsignedReader scheme origin destination udp).run p = .ok (m, rest)) :
    ∃ words mid, (wordsReader origin).run p = .ok (words, mid) ∧ words.2 < 256 ^ 4 ∧
      (relayAfter words.1 >>= fun _ =>
          Content.reader scheme false (Slots.unpack (UInt32.ofNat words.2)).toList []).run mid
        = .ok (m.content, rest) := by
  rw [unsignedReader_eq] at h
  obtain ⟨first, mid, taken, next⟩ := run_bind_eq_ok.mp h
  cases known : MessageKind.ofCode? (wordOf first / 16 % 16) with
  | none =>
      rw [known] at next
      exact absurd next run_malformed_ne_ok
  | some kind =>
      rw [known] at next
      obtain ⟨source, mid₁, h₁, next₁⟩ := run_bind_eq_ok.mp next
      obtain ⟨target, mid₂, h₂, next₂⟩ := run_bind_eq_ok.mp next₁
      obtain ⟨packed, mid₃, h₃, next₃⟩ := run_bind_eq_ok.mp next₂
      obtain ⟨relay, mid₄, h₄, next₄⟩ := run_bind_eq_ok.mp next₃
      obtain ⟨content, h₅, rfl⟩ := run_bind_pure_eq_ok.mp next₄
      refine ⟨(wordOf first, packed), mid₃, ?_, (run_word_eq_ok.mp h₃).1, ?_⟩
      · refine run_bind_eq_ok.mpr ⟨first, mid, taken, run_bind_eq_ok.mpr ⟨source, mid₁, h₁, ?_⟩⟩
        exact run_bind_eq_ok.mpr ⟨target, mid₂, h₂, run_bind_pure_eq_ok.mpr ⟨packed, h₃, rfl⟩⟩
      · exact run_bind_eq_ok.mpr ⟨relay, mid₄, h₄, h₅⟩

/-- The message has the slots that the packet tells. -/
theorem asksForSignature_iff {p rest : Bytes} {m : Message}
    (h : (unsignedReader scheme origin destination udp).run p = .ok (m, rest)) :
    AsksForSignature origin p ↔ isSigned m.content = true := by
  obtain ⟨words, mid, told, small, later⟩ := run_words_of_run h
  obtain ⟨relay, mid', -, read⟩ := run_bind_eq_ok.mp later
  obtain ⟨⟨-, -, slots⟩, -⟩ := Content.spelled_reader read
  rw [isSigned_eq_true_iff, slots, unpack_first_iff small]
  constructor
  · rintro ⟨words', rest', told', asks⟩
    rw [told] at told'
    obtain ⟨rfl, -⟩ := Prod.mk.inj (Except.ok.inj told')
    exact asks
  · exact fun asks => ⟨words, mid, told, asks⟩

/-- The key in the first slot is the one that the packet tells. -/
theorem signer_of_run {p rest : Bytes} {m : Message}
    (h : (unsignedReader scheme origin destination udp).run p = .ok (m, rest))
    (signed : isSigned m.content = true) :
    ∃ key, (∃ left, (signerReader origin).run p = .ok (key, left)) ∧
      m.content.head? = some (.signedPublicKey key) := by
  obtain ⟨words, mid, told, small, later⟩ := run_words_of_run h
  obtain ⟨relay, mid', passed, read⟩ := run_bind_eq_ok.mp later
  obtain ⟨⟨-, -, slots⟩, -⟩ := Content.spelled_reader read
  rw [isSigned_eq_true_iff, slots] at signed
  obtain ⟨others, listed⟩ := List.head?_eq_some_iff.mp signed
  rw [listed] at read
  obtain ⟨key, left, taken, head⟩ := head_of_run read
  refine ⟨key, ⟨left, ?_⟩, head⟩
  exact run_bind_eq_ok.mpr ⟨words, mid, told, run_bind_eq_ok.mpr ⟨relay, mid', passed, taken⟩⟩

/-- The key in the first slot is the first of all public keys, whichever follow. -/
theorem publicKeys_of_head {c : Content} {key : Bytes}
    (h : c.head? = some (.signedPublicKey key)) : c.publicKeys[0]? = some key := by
  cases c with
  | nil => exact nomatch h
  | cons s c =>
      obtain rfl := Option.some.inj h
      rfl

/-- A packet that is accepted as checked is its message and a signature over it. -/
theorem endorsed_of_run {p s : Bytes} {m : Message}
    (h : (unsignedReader scheme origin destination udp).run p = .ok (m, s))
    (signed : isSigned m.content = true) (size : s.length = scheme.signatureSize)
    (good : scheme.verify (m.content.publicKeys.headD []) (p.take (p.length - s.length)) s
      = .ok true) :
    ∃ key d, Endorsed scheme origin p key d s ∧ Spells (spare m) d (unsigned m) ∧
      m.content.head? = some (.signedPublicKey key) := by
  obtain ⟨key, signer, head⟩ := signer_of_run h signed
  obtain ⟨-, d, rfl, spells⟩ := spelled_unsigned scheme origin destination udp h
  have first : m.content.publicKeys.headD [] = key := by
    rw [List.headD_eq_head?_getD, List.head?_eq_getElem?, publicKeys_of_head head,
      Option.getD_some]
  have front : (d ++ s).take ((d ++ s).length - s.length) = d := by
    rw [List.length_append, Nat.add_sub_cancel, List.take_left]
  rw [first, front] at good
  exact ⟨key, d, ⟨rfl, size, signer, good⟩, spells, head⟩

/-- A decoded message is verified exactly if its first slot asks for it, and then the signature is
the one of that key. -/
theorem vouched_of_decode {p : Bytes} {m : Message}
    (read : decode scheme p origin destination udp = .ok m) : Vouched scheme origin p m := by
  obtain ⟨m', rest, h, ⟨plain, rfl, rfl⟩ | ⟨signed, rfl, size, good⟩⟩ := decode_eq_ok_iff.mp read
  · -- the reader itself marks no message as checked
    have unchecked : m'.verified = false := by
      have made := (spelled_unsigned scheme origin destination udp h).1.fixed
      rw [← made]
      rfl
    have unasked : ¬ isSigned m'.content = true := Bool.eq_false_iff.mp plain
    have closed : ¬ m'.verified = true := Bool.eq_false_iff.mp unchecked
    refine ⟨iff_of_false closed ?_, iff_of_false closed ?_, fun checked => absurd checked closed⟩
    · rw [asksForSignature_iff h]
      exact unasked
    · rw [← isSigned_eq_true_iff]
      exact unasked
  · refine ⟨iff_of_true rfl ?_, iff_of_true rfl (isSigned_eq_true_iff.mp signed), fun _ => ?_⟩
    · exact (asksForSignature_iff h).mpr signed
    · obtain ⟨key, d, endorsed, spells, head⟩ := endorsed_of_run h signed size good
      exact ⟨key, d, rest, endorsed, spells, head, publicKeys_of_head head⟩

/-- **A message is verified exactly if its packet asks for it**: then the signature covers the whole
packet in front of it and belongs to the key in the first slot (`Vouched`). A packet that asks for a
signature and is `Endorsed` by none is refused. -/
theorem decode_vouched (scheme : SignatureScheme) (p : Bytes) (origin destination : SocketAddress)
    (udp : Bool) :
    (∀ m, decode scheme p origin destination udp = .ok m → Vouched scheme origin p m) ∧
      (AsksForSignature origin p → (∀ key d s, ¬ Endorsed scheme origin p key d s) →
        ∃ f, decode scheme p origin destination udp = .error f) := by
  refine ⟨fun m read => vouched_of_decode read, fun asks bare => ?_⟩
  cases read : decode scheme p origin destination udp with
  | error f => exact ⟨f, rfl⟩
  | ok m =>
      have vouched := vouched_of_decode read
      obtain ⟨key, d, s, endorsed, -⟩ := vouched.covered (vouched.asked.mpr asks)
      exact absurd endorsed (bare key d s)

theorem decode_vouched_signedMessage :
    ∃ p m, decode Ed25519.scheme p relayedPeer.tcpSocket relayedPeer.udpSocket true = .ok m ∧
      m.verified = true ∧ AsksForSignature relayedPeer.tcpSocket p ∧
      ∃ d s, Endorsed Ed25519.scheme relayedPeer.tcpSocket p somePublicKey d s := by
  have signed := isSigned_signedMessage
  have key : signedMessage.content.publicKeys[0]? = some somePublicKey := by decide +kernel
  obtain ⟨packet, read⟩ :=
    exists_decode_signedMessage relayedPeer.tcpSocket relayedPeer.udpSocket true
  have vouched := (decode_vouched Ed25519.scheme packet relayedPeer.tcpSocket
    relayedPeer.udpSocket true).1 _ read
  obtain ⟨key', d, s, endorsed, -, -, first⟩ := vouched.covered signed
  rw [(conveyed_arrived _ _ _ _).publicKeys, key] at first
  obtain rfl := Option.some.inj first
  exact ⟨packet, _, read, signed, vouched.asked.mp signed, d, s, endorsed⟩

end Packet

end PeerMessaging
