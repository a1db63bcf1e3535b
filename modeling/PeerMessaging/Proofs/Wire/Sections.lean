import PeerMessaging.Proofs.Wire.Peers
import PeerMessaging.Wire.Section

/-!
# Sections survive their packets

A section with a value makes one chunk. The writer asks two things of it, a set of at most 255
members and a public key that the scheme can use; the reader needs one more, that the length
of a blob or a key fits the bytes in which it travels. Then the section is read back, its peers
without the relays that no packet carries. And whatever is read as a section of some kind is
such a section, spelled by the bytes in front; bits are spare only in the flags of neighbors.
-/

namespace PeerMessaging

open Bytes Reader

/-- The bits of a peer in a set that mean nothing. -/
def neighborSpare (p : PeerAddress) : Bytes := solid p.ip.encode.length ++ p.spare

namespace Section

/-- Whether the section has the value that its kind announces. -/
def isComplete : Section → Bool
  | announced _ => false
  | _ => true

/-- The chunk of a section in a packet. -/
def chunk : Section → Chunk
  | empty => .inline []
  | key v => .inline (Bytes.ofNat 20 v.toNat)
  | integer v => .inline (Bytes.ofNat 4 v.toBitVec.toNat)
  | long v => .inline (Bytes.ofNat 8 v.toBitVec.toNat)
  | buffer data => .blob data
  | neighbors peers => .inline (UInt8.ofNat peers.length :: peers.flatMap neighborBytes)
  | endpoints list => .inline (UInt8.ofNat list.length :: list.flatMap Endpoint.encode)
  | publicKey data => .inline (Bytes.ofNat 2 data.length ++ data)
  | signedPublicKey data => .inline (Bytes.ofNat 2 data.length ++ data)
  | foreign _ data => .blob data
  | announced _ => .inline []

/-- The bytes of a section in a packet. -/
def bytes (s : Section) : Bytes := s.chunk.bytes

/-- The bits of a section in a packet that mean nothing. -/
def spare : Section → Bytes
  | neighbors peers => 0 :: peers.flatMap neighborSpare
  | s => solid s.bytes.length

/-- What a packet carries of a section. -/
def carried : Section → Section
  | neighbors peers => .neighbors (peers.map PeerAddress.carried)
  | s => s

/-- What the writer asks of a section. -/
def Sendable (scheme : SignatureScheme) : Section → Prop
  | neighbors peers => peers.length ≤ 255
  | endpoints list => list.length ≤ 255
  | publicKey data => scheme.checkPublicKey data = .ok ()
  | signedPublicKey data => scheme.checkPublicKey data = .ok ()
  | announced _ => False
  | _ => True

/-- A section that can be written has its value. -/
theorem Sendable.isComplete {scheme : SignatureScheme} {s : Section} (h : s.Sendable scheme) :
    s.isComplete := by
  cases s with
  | announced kind => exact False.elim h
  | _ => rfl

/-- A length that travels with the section fits the bytes that it has. -/
def Short : Section → Prop
  | buffer data => data.length < 2 ^ 32
  | foreign _ data => data.length < 2 ^ 32
  | publicKey data => data.length < 2 ^ 16
  | signedPublicKey data => data.length < 2 ^ 16
  | _ => True

/-! ## What is written is read back -/

theorem reads_neighbor (p : PeerAddress) : neighborReader.Reads (neighborBytes p) p.carried :=
  Reads.bind (IpAddress.reads_encode p.ip) (PeerAddress.reads_encode p p.ip)

/-- Bytes are read back from behind their length of four bytes. -/
theorem reads_blob {data : Bytes} (short : data.length < 2 ^ 32) :
    blobReader.Reads (Bytes.ofNat 4 data.length ++ data) data :=
  Reads.bind (reads_word short) (reads_take rfl)

/-- A public key that is usable is read back from behind its length of two bytes. -/
theorem reads_publicKey {scheme : SignatureScheme} {data : Bytes}
    (usable : scheme.checkPublicKey data = .ok ()) (short : data.length < 2 ^ 16) :
    (publicKeyReader scheme).Reads (Bytes.ofNat 2 data.length ++ data) data := by
  refine Reads.bind (reads_word short) ?_
  rw [← List.append_nil data]
  refine Reads.bind (reads_take (by rw [List.append_nil])) ?_
  rw [List.append_nil, usable]
  exact reads_pure data

/-- A set is its number of members in one byte and the members. -/
theorem reads_set {α : Type} {r : Reader α} {count : Nat} {front : Bytes} {members : List α}
    {f : List α → Section} (few : count ≤ 255) (all : (times count r).Reads front members) :
    Reader.Reads (do
        let count ← Reader.word 1
        let members ← Reader.times count r
        return f members)
      (UInt8.ofNat count :: front) (f members) := by
  show Reader.Reads _ ([UInt8.ofNat count] ++ front) _
  rw [← Bytes.ofNat_one]
  exact Reads.bind (reads_word (by omega)) (Reads.bind_pure all rfl)

/-- A section that can be written is read back as what a packet carries of it. -/
theorem reads_bytes {scheme : SignatureScheme} {s : Section} (sendable : s.Sendable scheme)
    (short : s.Short) : (reader scheme s.kind).Reads s.bytes s.carried := by
  cases s with
  | empty => exact reads_pure _
  | key v =>
      refine Reads.bind_pure (reads_word v.isLt) ?_
      rw [BitVec.ofNat_toNat, BitVec.setWidth_eq]
      rfl
  | integer v =>
      refine Reads.bind_pure (reads_word v.toBitVec.isLt) ?_
      rw [BitVec.ofNat_toNat, BitVec.setWidth_eq]
      rfl
  | long v =>
      refine Reads.bind_pure (reads_word v.toBitVec.isLt) ?_
      rw [BitVec.ofNat_toNat, BitVec.setWidth_eq]
      rfl
  | buffer data => exact Reads.bind_pure (reads_blob short) rfl
  | neighbors peers => exact reads_set sendable (reads_times fun p _ => reads_neighbor p)
  | endpoints list => exact reads_set sendable (Endpoint.reads_all list)
  | publicKey data => exact Reads.bind_pure (reads_publicKey sendable short) rfl
  | signedPublicKey data => exact Reads.bind_pure (reads_publicKey sendable short) rfl
  | foreign kind data => exact Reads.bind_pure (reads_blob short) rfl
  | announced kind => exact absurd sendable id

/-! ## What is read was written so -/

/-- A neighbor is read from its bytes, up to the spare bits. -/
theorem spelled_neighbor :
    neighborReader.Spelled (fun p => p.carried = p) neighborSpare neighborBytes := by
  intro b p rest h
  obtain ⟨ip, mid, first, second⟩ := run_bind_eq_ok.mp h
  obtain rfl := IpAddress.eq_encode_of_run first
  obtain ⟨⟨rfl, carries⟩, front, rfl, spells⟩ := PeerAddress.spelled_reader ip second
  exact ⟨carries, p.ip.encode ++ front, (List.append_assoc ..).symm,
    (Spells.solid rfl).append spells⟩

/-- Bytes are read from behind their length alone. -/
theorem eq_of_run_blob {b data rest : Bytes} (h : blobReader.run b = .ok (data, rest)) :
    data.length < 2 ^ 32 ∧ b = Bytes.ofNat 4 data.length ++ data ++ rest := by
  obtain ⟨length, mid, first, second⟩ := run_bind_eq_ok.mp h
  obtain ⟨small, rfl⟩ := run_word_eq_ok.mp first
  obtain ⟨rfl, rfl⟩ := run_take_eq_ok.mp second
  exact ⟨small, (List.append_assoc ..).symm⟩

/-- A number is read from all the bits that it is written with. -/
theorem eq_of_run_number {n bits : Nat} (size : 256 ^ n = 2 ^ bits) {f : Nat → Section}
    {b rest : Bytes} {s : Section}
    (h : Reader.run (do
        let v ← Reader.word n
        return f v) b = .ok (s, rest)) :
    ∃ v, s = f v ∧ b = Bytes.ofNat n (v % 2 ^ bits) ++ rest := by
  obtain ⟨v, first, rfl⟩ := run_bind_pure_eq_ok.mp h
  obtain ⟨small, rfl⟩ := run_word_eq_ok.mp first
  -- a number is written modulo its width, and what was read is less than that
  exact ⟨v, rfl, by rw [Bytes.mod_bits small size]⟩

/-- A public key is read from behind its length alone, and is usable. -/
theorem eq_of_run_publicKey {scheme : SignatureScheme} {b data rest : Bytes}
    (h : (publicKeyReader scheme).run b = .ok (data, rest)) :
    scheme.checkPublicKey data = .ok () ∧ data.length < 2 ^ 16 ∧
      b = Bytes.ofNat 2 data.length ++ data ++ rest := by
  obtain ⟨length, mid, first, next⟩ := run_bind_eq_ok.mp h
  obtain ⟨key, mid', second, next'⟩ := run_bind_eq_ok.mp next
  obtain ⟨u, third, rfl⟩ := run_bind_pure_eq_ok.mp next'
  obtain ⟨usable, rfl⟩ := run_ofExcept_eq_ok.mp third
  obtain ⟨rfl, rfl⟩ := run_take_eq_ok.mp second
  obtain ⟨small, rfl⟩ := run_word_eq_ok.mp first
  exact ⟨usable, small, (List.append_assoc ..).symm⟩

/-- The members of a set that was read, behind the byte with their number. -/
theorem eq_of_run_set {α : Type} {r : Reader α} {f : List α → Section} {b rest : Bytes}
    {s : Section}
    (h : Reader.run (do
        let count ← Reader.word 1
        let members ← Reader.times count r
        return f members) b = .ok (s, rest)) :
    ∃ count members mid, count ≤ 255 ∧ s = f members ∧ b = UInt8.ofNat count :: mid ∧
      (times count r).run mid = .ok (members, rest) := by
  obtain ⟨count, mid, first, next⟩ := run_bind_eq_ok.mp h
  obtain ⟨members, second, rfl⟩ := run_bind_pure_eq_ok.mp next
  obtain ⟨small, rfl⟩ := run_word_eq_ok.mp first
  rw [Bytes.ofNat_one]
  exact ⟨count, members, mid, by omega, rfl, rfl, second⟩

/-- A reader of a section whose kind has no spare bits. -/
theorem spelled_solid {s : Section} {b rest : Bytes} (solid_spare : s.spare = solid s.bytes.length)
    (h : b = s.bytes ++ rest) : ∃ front, b = front ++ rest ∧ Spells s.spare front s.bytes := by
  rw [solid_spare]
  exact ⟨s.bytes, h, Spells.solid rfl⟩

/-- Whatever is read as a section has all that a section of its kind needs, and is spelled by the
bytes in front. -/
theorem spelled_reader {scheme : SignatureScheme} {k : ContentKind} (used : k ≠ .undefined) :
    (reader scheme k).Spelled
      (fun s => s.kind = k ∧ s.Sendable scheme ∧ s.Short ∧ s.carried = s) spare bytes := by
  intro b s rest h
  cases k with
  | undefined => exact absurd rfl used
  | empty =>
      obtain ⟨rfl, rfl⟩ := run_pure_eq_ok.mp h
      exact ⟨⟨rfl, trivial, trivial, rfl⟩, spelled_solid rfl rfl⟩
  | key =>
      obtain ⟨v, rfl, rfl⟩ := eq_of_run_number (show 256 ^ 20 = 2 ^ 160 by decide) h
      exact ⟨⟨rfl, trivial, trivial, rfl⟩, spelled_solid rfl rfl⟩
  | integer =>
      obtain ⟨v, rfl, rfl⟩ := eq_of_run_number (show 256 ^ 4 = 2 ^ 32 by decide) h
      exact ⟨⟨rfl, trivial, trivial, rfl⟩, spelled_solid rfl rfl⟩
  | long =>
      obtain ⟨v, rfl, rfl⟩ := eq_of_run_number (show 256 ^ 8 = 2 ^ 64 by decide) h
      exact ⟨⟨rfl, trivial, trivial, rfl⟩, spelled_solid rfl rfl⟩
  | buffer =>
      obtain ⟨data, first, rfl⟩ := run_bind_pure_eq_ok.mp h
      obtain ⟨short, rfl⟩ := eq_of_run_blob first
      exact ⟨⟨rfl, trivial, short, rfl⟩, spelled_solid rfl rfl⟩
  | neighbors =>
      obtain ⟨count, peers, mid, few, rfl, rfl, all⟩ := eq_of_run_set h
      obtain ⟨⟨rfl, carried⟩, front, rfl, spells⟩ := spelled_neighbor.times count all
      refine ⟨⟨rfl, few, trivial, ?_⟩, _ :: front, rfl, ?_⟩
      · exact congrArg neighbors ((List.map_congr_left carried).trans (List.map_id' peers))
      · -- no bit of the number of members is spare
        have whole := spells.cons 0 (UInt8.ofNat peers.length)
        rwa [UInt8.not_zero, UInt8.and_neg_one] at whole
  | endpoints =>
      obtain ⟨count, list, mid, few, rfl, rfl, all⟩ := eq_of_run_set h
      obtain ⟨rfl, rfl⟩ := eq_of_run_times Endpoint.eq_encode_of_run all
      exact ⟨⟨rfl, few, trivial, rfl⟩, spelled_solid rfl rfl⟩
  | publicKey =>
      obtain ⟨data, first, rfl⟩ := run_bind_pure_eq_ok.mp h
      obtain ⟨usable, short, rfl⟩ := eq_of_run_publicKey first
      exact ⟨⟨rfl, usable, short, rfl⟩, spelled_solid rfl rfl⟩
  | signedPublicKey =>
      obtain ⟨data, first, rfl⟩ := run_bind_pure_eq_ok.mp h
      obtain ⟨usable, short, rfl⟩ := eq_of_run_publicKey first
      exact ⟨⟨rfl, usable, short, rfl⟩, spelled_solid rfl rfl⟩
  | foreign kind =>
      obtain ⟨data, first, rfl⟩ := run_bind_pure_eq_ok.mp h
      obtain ⟨short, rfl⟩ := eq_of_run_blob first
      exact ⟨⟨rfl, trivial, short, rfl⟩, spelled_solid rfl rfl⟩

/-! ## Sections are not long -/

theorem length_neighborBytes_le (p : PeerAddress) : (neighborBytes p).length ≤ 148 := by
  have ip := p.ip.length_encode_le
  have rest := p.length_encode_le
  rw [neighborBytes, List.length_append]
  omega

/-- The bound is a generous one. What matters is that eight sections stay far from 64 bits. -/
theorem length_bytes_le {scheme : SignatureScheme} {s : Section} (sendable : s.Sendable scheme)
    (short : s.Short) : s.bytes.length ≤ 2 ^ 33 := by
  have blob : ∀ {n : Nat} {data : Bytes}, n ≤ 4 → data.length < 2 ^ 32 →
      (Bytes.ofNat n data.length ++ data).length ≤ 2 ^ 33 := by
    intro n data small h
    rw [List.length_append, Bytes.length_ofNat]
    omega
  cases s with
  | empty => exact Nat.zero_le _
  | key v => rw [bytes, chunk, Chunk.bytes, Bytes.length_ofNat]; decide
  | integer v => rw [bytes, chunk, Chunk.bytes, Bytes.length_ofNat]; decide
  | long v => rw [bytes, chunk, Chunk.bytes, Bytes.length_ofNat]; decide
  | buffer data => exact blob (Nat.le_refl 4) short
  | neighbors peers =>
      have few : peers.length ≤ 255 := sendable
      have all := length_flatMap_le fun p (_ : p ∈ peers) => length_neighborBytes_le p
      show (peers.flatMap neighborBytes).length + 1 ≤ _
      omega
  | endpoints list =>
      have few : list.length ≤ 255 := sendable
      have all := length_flatMap_le fun e (_ : e ∈ list) => Endpoint.length_encode_le e
      show (list.flatMap Endpoint.encode).length + 1 ≤ _
      omega
  | publicKey data => exact blob (by decide) (Nat.lt_trans short (by decide))
  | signedPublicKey data => exact blob (by decide) (Nat.lt_trans short (by decide))
  | foreign kind data => exact blob (Nat.le_refl 4) short
  | announced kind => exact absurd sendable id

end Section

end PeerMessaging
