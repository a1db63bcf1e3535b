import PeerMessaging.Proofs.Gather.Refinement
import PeerMessaging.Proofs.Wire.Acceptance

/-!
# Payloads stay apart

A packet is gathered from pieces, and too many of them would be merged, which copies every payload.
It never comes to that. A slot with a payload ends two pieces: the bytes that have waited so far, up
to the length of the payload, and the payload itself. So eight of them end sixteen pieces, and
nothing is left over, for the header went out with the first one. A slot without a payload ends no
piece, but its bytes wait and may be left over in the end, which is one piece for them all. A
signature is one piece more, and the key in the first slot leaves room for it.
-/

namespace PeerMessaging

/-- The bytes that the section hands on as they are. -/
def Section.payload? : Section → Option Bytes
  | buffer data => some data
  | foreign _ data => some data
  | _ => none

namespace Gather

/-- The pieces that a buffer takes: those that have bytes. -/
def kept (pieces : List Bytes) : List Bytes := pieces.filter fun b => !b.isEmpty

theorem kept_cons_of_ne_nil {b : Bytes} (solid : b ≠ []) (pieces : List Bytes) :
    kept (b :: pieces) = b :: kept pieces := by
  refine List.filter_cons_of_pos ?_
  cases b with
  | nil => exact absurd rfl solid
  | cons x b => rfl

/-- The pieces that are kept of two stretches are those of the first and those of the second. -/
theorem kept_append (front back : List Bytes) : kept (front ++ back) = kept front ++ kept back :=
  List.filter_append ..

theorem length_kept_le (pieces : List Bytes) : (kept pieces).length ≤ pieces.length :=
  List.length_filter_le ..

/-- Where there is room a piece is appended and nothing is merged. -/
theorem parts_add_of_room {g : Gather} (room : g.parts.length < g.limit) {b : Bytes}
    (solid : b ≠ []) : (g.add b).parts = g.parts ++ [b] := by
  have filled : ¬ b.isEmpty = true := fun none => solid (List.isEmpty_iff.mp none)
  rw [parts, List.length_map] at room
  rw [add, if_neg filled]
  dsimp only
  rw [List.length_append, List.length_singleton, if_neg (Nat.not_lt.mpr room)]
  exact List.map_append

theorem limit_addAll {bs : List Bytes} : ∀ g : Gather, (g.addAll bs).limit = g.limit := by
  induction bs with
  | nil => intro g; rfl
  | cons b bs ih => intro g; exact (ih (g.add b)).trans (limit_add g b)

/-- Pieces for which there is room are appended as they are. -/
theorem parts_addAll_of_room {bs : List Bytes} :
    ∀ {g : Gather}, g.parts.length + (kept bs).length ≤ g.limit →
      (g.addAll bs).parts = g.parts ++ kept bs := by
  induction bs with
  | nil => intro g _; exact (List.append_nil _).symm
  | cons b bs ih =>
      intro g room
      by_cases empty : b = []
      · subst empty
        exact ih room
      · rw [kept_cons_of_ne_nil empty, List.length_cons] at room
        have parts := parts_add_of_room (g := g) (by omega) empty
        show ((g.add b).addAll bs).parts = _
        rw [ih, parts, kept_cons_of_ne_nil empty, List.append_assoc]
        · rfl
        · rw [limit_add, parts, List.length_append, List.length_singleton]
          omega

end Gather

/-- Payloads lie apart among some pieces: in their order, each as a piece of its own, and the piece
before it ends with the length of the payload in four bytes. -/
inductive Apart : List Bytes → List Bytes → Prop
  | done (pieces : List Bytes) : Apart [] pieces
  | other {payloads pieces : List Bytes} (piece : Bytes) :
      Apart payloads pieces → Apart payloads (piece :: pieces)
  | payload {payloads pieces : List Bytes} (front data : Bytes) :
      Apart payloads pieces →
      Apart (data :: payloads) ((front ++ Bytes.ofNat 4 data.length) :: data :: pieces)

/-- The payloads of a content that have bytes, in slot order. -/
def Content.payloads (c : Content) : List Bytes := Gather.kept (c.filterMap Section.payload?)

namespace Packet

open Gather

/-! ## What the writer adds -/

/-- The pieces that the writer adds for some chunks, after the bytes that wait. -/
def added (pending : Bytes) : List Chunk → List Bytes
  | [] => [pending]
  | .inline b :: rest => added (pending ++ b) rest
  | .blob data :: rest => (pending ++ Bytes.ofNat 4 data.length) :: data :: added [] rest

/-- Chunks that are put into a draft and flushed add the pieces that `added` lists. -/
theorem flush_foldl_put {chunks : List Chunk} :
    ∀ d : Draft, (chunks.foldl Draft.put d).flush = d.pieces.addAll (added d.pending chunks) := by
  induction chunks with
  | nil => intro d; rfl
  | cons ch chunks ih =>
      intro d
      cases ch with
      | inline b => exact ih _
      | blob data => exact ih _

/-- A section with a payload makes a blob, and any other makes bytes that join the rest. -/
theorem chunk_eq (s : Section) :
    (∃ data, s.payload? = some data ∧ s.chunk = .blob data) ∨
      s.payload? = none ∧ ∃ b, s.chunk = .inline b := by
  cases s with
  | buffer data => exact .inl ⟨data, rfl, rfl⟩
  | foreign kind data => exact .inl ⟨data, rfl, rfl⟩
  | _ => exact .inr ⟨rfl, _, rfl⟩

theorem append_length_ne_nil (front data : Bytes) : front ++ Bytes.ofNat 4 data.length ≠ [] := by
  intro nothing
  have length := congrArg List.length (List.append_eq_nil_iff.mp nothing).2
  rw [Bytes.length_ofNat] at length
  cases length

/-- Whatever waits and whatever follows, the payloads of the slots lie apart. -/
theorem apart_added {c : Content} (tail : List Bytes) :
    ∀ pending, Apart c.payloads (kept (added pending (c.map Section.chunk) ++ tail)) := by
  induction c with
  | nil => intro pending; exact .done _
  | cons s c ih =>
      intro pending
      rw [List.map_cons, Content.payloads]
      rcases chunk_eq s with ⟨data, own, chunk⟩ | ⟨none, b, chunk⟩
      · rw [chunk, List.filterMap_cons_some own, added, List.cons_append, List.cons_append,
          kept_cons_of_ne_nil (append_length_ne_nil pending data)]
        by_cases empty : data = []
        · subst empty
          exact .other _ (ih [])
        · rw [kept_cons_of_ne_nil empty, kept_cons_of_ne_nil empty]
          exact .payload pending data (ih [])
      · rw [chunk, List.filterMap_cons_none none]
        exact ih _

/-! ## How many pieces there are -/

/-- A payload adds at most two pieces: what was pending with the length, and itself. -/
theorem length_kept_blob_le (pending data : Bytes) (chunks : List Chunk) :
    (kept (added pending (.blob data :: chunks))).length ≤
      2 + (kept (added [] chunks)).length := by
  have both : added pending (.blob data :: chunks) =
      [pending ++ Bytes.ofNat 4 data.length, data] ++ added [] chunks := rfl
  rw [both, kept_append, List.length_append]
  exact Nat.add_le_add_right (length_kept_le _) _

/-- Each chunk makes two pieces at most, and what waits may be one more. -/
theorem length_kept_added_le {chunks : List Chunk} :
    ∀ pending, (kept (added pending chunks)).length ≤
      (kept [pending]).length + 2 * chunks.length := by
  induction chunks with
  | nil => intro pending; exact Nat.le_refl _
  | cons ch chunks ih =>
      intro pending
      rw [List.length_cons]
      cases ch with
      | inline b =>
          have later := ih (pending ++ b)
          have one : (kept [pending ++ b]).length ≤ 1 := length_kept_le _
          show (kept (added (pending ++ b) chunks)).length ≤ _
          omega
      | blob data =>
          have later : _ ≤ 0 + 2 * chunks.length := ih []
          have both := length_kept_blob_le pending data chunks
          omega

/-- If the first chunk joins what waits, only the other chunks make two pieces. -/
theorem length_kept_inline_le (pending b : Bytes) (chunks : List Chunk) :
    (kept (added pending (.inline b :: chunks))).length ≤ 2 * chunks.length + 1 := by
  have all : (kept (added (pending ++ b) chunks)).length ≤ _ := length_kept_added_le (pending ++ b)
  have one : (kept [pending ++ b]).length ≤ 1 := length_kept_le _
  show (kept (added (pending ++ b) chunks)).length ≤ _
  omega

/-- Eight chunks make sixteen pieces at most. -/
theorem length_kept_chunks_le {chunks : List Chunk} (few : chunks.length ≤ 8) (pending : Bytes) :
    (kept (added pending chunks)).length ≤ 16 := by
  cases chunks with
  | nil => exact Nat.le_trans (length_kept_le [pending]) (by simp)
  | cons ch chunks =>
      rw [List.length_cons] at few
      cases ch with
      | inline b =>
          have all := length_kept_inline_le pending b chunks
          omega
      | blob data =>
          -- the length ends what waits, so nothing of it is left over for the end
          have later : _ ≤ 0 + 2 * chunks.length := length_kept_added_le []
          have both := length_kept_blob_le pending data chunks
          omega

/-- The key that signs is no payload, and leaves room for the signature. -/
theorem length_kept_signed_lt {c : Content} (signed : isSigned c = true) (pending : Bytes) :
    (kept (added pending (c.map Section.chunk))).length < 2 * c.length := by
  cases c with
  | nil => cases signed
  | cons s c =>
      have kind : s.kind = .signedPublicKey := Option.some.inj (beq_iff_eq.mp signed)
      have joins : ∃ b, s.chunk = .inline b := by
        cases s with
        | buffer data => cases kind
        | foreign k data => cases kind
        | _ => exact ⟨_, rfl⟩
      obtain ⟨b, chunk⟩ := joins
      have all := length_kept_inline_le pending b (c.map Section.chunk)
      rw [List.length_map] at all
      rw [List.map_cons, chunk, List.length_cons]
      omega

/-! ## Packets -/

/-- What the writer added is in the buffer as it was added, and the payloads lie apart there. -/
structure Unmerged (payloads : List Bytes) (g : Gather) : Prop where
  limit : g.limit = 16
  few : g.pieces.length ≤ 16
  whole : ∃ pieces, g = Gather.empty.addAll pieces ∧ g.parts = kept pieces
  apart : Apart payloads g.parts

/-- Some pieces that are few enough, in an empty buffer. -/
theorem unmerged_addAll {payloads pieces : List Bytes} (few : (kept pieces).length ≤ 16)
    (apart : Apart payloads (kept pieces)) : Unmerged payloads (Gather.empty.addAll pieces) := by
  have parts : (Gather.empty.addAll pieces).parts = kept pieces :=
    parts_addAll_of_room (g := Gather.empty) (Nat.le_trans (Nat.le_of_eq (Nat.zero_add _)) few)
  refine ⟨limit_addAll _, ?_, ⟨pieces, rfl, parts⟩, parts ▸ apart⟩
  rw [← parts, Gather.parts, List.length_map] at few
  exact few

variable {scheme : SignatureScheme} {m : Message} {packet : Gather}

/-- The packet is filled with the pieces that the writer adds, and with the signature if there is
one. -/
theorem addAll_of_encode (writable : m.Writable) (encoded : encode scheme m = .ok packet) :
    ∃ tail, packet =
        Gather.empty.addAll (added (header m) (m.content.map Section.chunk) ++ tail) ∧
      (tail = [] ∨ isSigned m.content = true ∧ tail.length = 1) := by
  obtain ⟨u, made, signs⟩ := encode_eq_ok_iff.mp encoded
  obtain ⟨-, rfl⟩ := (encodeUnsigned_eq_ok_iff writable.complete).mp made
  rw [filled, flush_foldl_put] at signs
  rcases signs with ⟨-, rfl⟩ | ⟨signed, -, signature, -, -, rfl⟩
  · exact ⟨[], by rw [List.append_nil], .inl rfl⟩
  · refine ⟨[signature], ?_, .inr ⟨signed, rfl⟩⟩
    rw [addAll, addAll, List.foldl_append]
    rfl

/-- In the packet of a message that can be written, the payloads are `Unmerged`. -/
theorem unmerged_of_encode (writable : m.Writable) (encoded : encode scheme m = .ok packet) :
    Unmerged m.content.payloads packet := by
  obtain ⟨tail, rfl, short⟩ := addAll_of_encode writable encoded
  refine unmerged_addAll ?_ (apart_added tail _)
  have slots : m.content.length ≤ 8 := by
    have fits := writable.wellFormed.fits
    rwa [Content.kinds, List.length_map] at fits
  rw [kept_append, List.length_append]
  rcases short with rfl | ⟨signed, one⟩
  · exact length_kept_chunks_le (by rwa [List.length_map]) _
  · have all := length_kept_signed_lt signed (header m)
    have last := length_kept_le tail
    omega

/-- **Encoding never merges**: whatever was done to make a message, and whether it is signed or not,
its packet has sixteen pieces at most, and each payload is a piece of its own behind its length. -/
theorem encode_unmerged {start : Message} (source : start.Source scheme) {edits : List Edit}
    (genuine : ∀ a, .add a ∈ edits → a.isGenuine = true)
    (encoded : encode scheme (start.build edits) = .ok packet) :
    Unmerged (start.build edits).content.payloads packet :=
  unmerged_of_encode (writable_of_made source genuine encoded) encoded

/-- As many payloads as there are slots. -/
def eightPayloads : List Edit := List.replicate 8 (.add (.plain (.buffer [1])))

/-- With eight payloads the limit is met exactly. -/
theorem encode_unmerged_eightPayloads :
    ∃ packet, encode Ed25519.scheme (Message.build {} eightPayloads) = .ok packet ∧
      packet.pieces.length = 16 ∧ Unmerged (List.replicate 8 [1]) packet := by
  have genuine : ∀ a, .add a ∈ eightPayloads → a.isGenuine = true := by
    intro a member
    cases List.eq_of_mem_replicate member
    rfl
  obtain ⟨packet, encoded, sixteen⟩ : ∃ packet,
      encode Ed25519.scheme (Message.build {} eightPayloads) = .ok packet ∧
        packet.pieces.length = 16 := ⟨_, rfl, rfl⟩
  exact ⟨packet, encoded, sixteen, encode_unmerged (.envelope .new) genuine encoded⟩

end Packet

end PeerMessaging
