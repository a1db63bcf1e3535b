import PeerMessaging.Proofs.Message.Layout
import PeerMessaging.Proofs.Wire.Headers
import PeerMessaging.Proofs.Wire.Refusals

/-!
# Which messages have a packet

A slot that is only announced leaves its family one value short. So a family that has as many
values as slots has been filled without gaps, each slot finds its own value, and what is left to
ask is what each value must meet by itself. If a value is missing, the slots of its family that
come later would find the values of others or none at all, and the last of them finds none: then
nothing is written.
-/

namespace PeerMessaging

namespace Content

/-- The slots of a kind's family find this value. -/
def InUse (c : Content) (k : ContentKind) (v : Value) : Prop :=
  ∃ r ∈ c.references, r.kind.family = k.family ∧ (c.values r.kind)[r.index]? = some v

/-- No family has more slots than values; empty sections have none. -/
def Valued (c : Content) : Prop :=
  ∀ k, k ≠ .empty → c.kinds.countP (fun e => e.family = k.family) ≤ (c.values k).length

variable {c : Content}

/-- Values are not short exactly if no slot was announced without one. -/
theorem valued_iff_complete (meant : .announced .empty ∉ c) :
    c.Valued ↔ ∀ s ∈ c, s.isComplete := by
  constructor
  · intro valued s hs
    cases s with
    | announced k =>
        have other : k ≠ .empty := by
          rintro rfl
          exact meant hs
        have enough := valued k other
        rw [values_eq, (owns_valueFor other).length_eq_stored (valueFor_announced k)] at enough
        exact absurd enough (Nat.not_le.mpr (stored_lt_of_announced hs))
    | _ => rfl
  · intro complete k other
    rw [values_eq]
    exact Nat.le_of_eq ((owns_valueFor other).length_filterMap complete).symm

/-- As long as sections are complete, the values in use are those of the sections. -/
theorem inUse_iff {content : Content} (complete : ∀ s ∈ content, s.isComplete) {k : ContentKind}
    {v : Value} :
    content.InUse k v ↔ ∃ s ∈ content, s.kind.family = k.family ∧ s.value? = some v := by
  constructor
  · rintro ⟨r, hr, family, found⟩
    obtain ⟨i, within, rfl⟩ := List.getElem_of_mem hr
    rw [length_references] at within
    have put : content[i]? = some content[i] := List.getElem?_eq_getElem within
    have refers := reference_of_slot put
    rw [List.getElem?_eq_getElem (length_references content ▸ within), Option.some_inj] at refers
    rw [refers] at family found
    refine ⟨content[i], List.getElem_mem within, family, ?_⟩
    by_cases empty : content[i].kind = .empty
    · -- the family of the empty sections has no values
      simp [referenceOf, empty, values] at found
    · obtain ⟨v', own, found'⟩ := value_of_slot complete put empty
      exact own.trans (found'.symm.trans found)
  · rintro ⟨s, hs, family, own⟩
    obtain ⟨i, put⟩ := List.getElem?_of_mem hs
    have valued : s.kind ≠ .empty := by
      intro empty
      cases s with
      | empty => cases own
      | announced kind => cases own
      | _ => cases empty
    obtain ⟨v', own', found⟩ := value_of_slot complete put valued
    cases own.symm.trans own'
    exact ⟨_, List.mem_of_getElem? (reference_of_slot put), family, found⟩

/-- What is asked of the values in use. -/
structure Usable (scheme : SignatureScheme) (c : Content) : Prop where
  neighbors : ∀ peers, c.InUse .neighbors (.peers peers) → peers.length ≤ 255
  endpoints : ∀ list, c.InUse .endpoints (.endpoints list) → list.length ≤ 255
  publicKeys : ∀ key, c.InUse .publicKey (.bytes key) → scheme.checkPublicKey key = .ok ()

/-- In complete content, all values in use can be written exactly if all sections can. -/
theorem usable_iff_sendable {scheme : SignatureScheme} (complete : ∀ s ∈ c, s.isComplete) :
    c.Usable scheme ↔ ∀ s ∈ c, s.Sendable scheme := by
  constructor
  · intro usable s hs
    cases s with
    | neighbors peers =>
        exact usable.neighbors peers ((inUse_iff complete).mpr ⟨_, hs, rfl, rfl⟩)
    | endpoints list =>
        exact usable.endpoints list ((inUse_iff complete).mpr ⟨_, hs, rfl, rfl⟩)
    | publicKey key =>
        exact usable.publicKeys key ((inUse_iff complete).mpr ⟨_, hs, rfl, rfl⟩)
    | signedPublicKey key =>
        exact usable.publicKeys key ((inUse_iff complete).mpr ⟨_, hs, rfl, rfl⟩)
    | announced k => exact nomatch complete _ hs
    | _ => trivial
  · intro sendable
    -- the form of a value and its family leave one kind of section, or two for public keys
    refine ⟨fun peers used => ?_, fun list used => ?_, fun key used => ?_⟩
    · obtain ⟨s, hs, -, own⟩ := (inUse_iff complete).mp used
      have good := sendable s hs
      cases s with
      | neighbors peers' => cases own; exact good
      | _ => cases own
    · obtain ⟨s, hs, -, own⟩ := (inUse_iff complete).mp used
      have good := sendable s hs
      cases s with
      | endpoints list' => cases own; exact good
      | _ => cases own
    · obtain ⟨s, hs, family, own⟩ := (inUse_iff complete).mp used
      have good := sendable s hs
      cases s with
      | publicKey key' => cases own; exact good
      | signedPublicKey key' => cases own; exact good
      | buffer data => cases family
      | foreign kind data => cases family
      | _ => cases own

end Content

namespace Packet

variable {scheme : SignatureScheme} {m : Message} {packet : Gather}

/-- What a message must meet to have a packet. -/
structure Encodable (scheme : SignatureScheme) (m : Message) : Prop where
  version : m.version ≤ 0xFFFFFF
  valued : m.content.Valued
  usable : m.content.Usable scheme
  signing : m.content.slots.toList.head? = some .signedPublicKey →
    ∃ key, m.signingKey = some key ∧ key.length = 32

/-- What is written for each slot is what the call for this slot has passed. -/
structure Faithful (scheme : SignatureScheme) (calls : List Addition) (c : Content) : Prop where
  stocked : Message.Stocked calls c
  written : ∀ (i : Nat) (a : Addition) (r : Reference), calls[i]? = some a →
    c.references[i]? = some r →
    ∃ s, a.section? = some s ∧ c.chunk scheme r = .ok s.chunk

/-- How a message that was made step by step is judged when its packet is asked for. -/
structure Judged (scheme : SignatureScheme) (start : Message) (edits : List Edit) : Prop where
  accepted : (∃ packet, encode scheme (start.build edits) = .ok packet) ↔
    Encodable scheme (start.build edits)
  unvalued : ∀ k, k ≠ .empty → .announced k ∈ start.taken edits →
    ∃ f, encode scheme (start.build edits) = .error f
  faithful : ∃ first, Message.FilledBy scheme start first ∧
    ∀ packet, encode scheme (start.build edits) = .ok packet →
      Faithful scheme (first ++ start.taken edits) (start.build edits).content
  refused : ∀ f, encode scheme (start.build edits) = .error f →
    (∃ fault, f = .encode fault) ∨ ∃ fault, f = .signature fault

/-- A message without a gap has a packet exactly if it meets all that. -/
theorem exists_encode_iff (keys : scheme.HasKeys) (wellFormed : m.content.WellFormed)
    (meant : .announced .empty ∉ m.content) :
    (∃ packet, encode scheme m = .ok packet) ↔ Encodable scheme m := by
  constructor
  · rintro ⟨packet, encoded⟩
    have complete := (writable_of_encode wellFormed meant encoded).complete
    obtain ⟨u, made, signs⟩ := encode_eq_ok_iff.mp encoded
    obtain ⟨⟨fits, sendable⟩, -⟩ := (encodeUnsigned_eq_ok_iff complete).mp made
    refine ⟨fits, (Content.valued_iff_complete meant).mpr complete,
      (Content.usable_iff_sendable complete).mpr sendable, fun first => ?_⟩
    rw [← isSigned_eq_true_iff] at first
    rcases signs with ⟨plain, -⟩ | ⟨-, key, signature, attached, signs, -⟩
    · exact absurd (plain.symm.trans first) Bool.false_ne_true
    · exact ⟨key, attached, (keys.sign_iff key _).mp ⟨signature, signs⟩⟩
  · rintro ⟨fits, valued, usable, signing⟩
    have complete := (Content.valued_iff_complete meant).mp valued
    have sendable := (Content.usable_iff_sendable complete).mp usable
    have made := (encodeUnsigned_eq_ok_iff complete).mpr ⟨⟨fits, sendable⟩, rfl⟩
    cases signed : isSigned m.content with
    | false => exact ⟨_, encode_eq_ok_iff.mpr ⟨_, made, .inl ⟨signed, rfl⟩⟩⟩
    | true =>
        obtain ⟨key, attached, length⟩ := signing (isSigned_eq_true_iff.mp signed)
        obtain ⟨signature, signs⟩ := (keys.sign_iff key _).mpr length
        exact ⟨_, encode_eq_ok_iff.mpr
          ⟨_, made, .inr ⟨signed, key, signature, attached, signs, rfl⟩⟩⟩

/-- A packet has each value in its own slot. -/
theorem faithful_of_encode {calls : List Addition} (follows : Message.Follows calls m.content)
    (writable : m.Writable) (encoded : encode scheme m = .ok packet) :
    Faithful scheme calls m.content := by
  refine ⟨follows.stocked writable.complete, fun i a r call refers => ?_⟩
  obtain ⟨s, put, adds⟩ := follows.section_of_call call
  cases (Content.reference_of_slot put).symm.trans refers
  obtain ⟨u, made, -⟩ := encode_eq_ok_iff.mp encoded
  obtain ⟨⟨-, sendable⟩, -⟩ := (encodeUnsigned_eq_ok_iff writable.complete).mp made
  have hs := List.mem_of_getElem? put
  have earlier : ∀ e ∈ m.content.take i, e.isComplete :=
    fun e he => writable.complete e (List.mem_of_mem_take he)
  have written : Content.chunk scheme (m.content.take i ++ s :: m.content.drop (i + 1))
      (Content.referenceOf (m.content.take i) s) = .ok s.chunk :=
    (Content.chunk_eq_ok_iff earlier (writable.complete s hs)).mpr ⟨sendable s hs, rfl⟩
  rw [← Content.split_of_slot put] at written
  exact ⟨s, adds, written⟩

/-- Whatever was done to make a message, it can be written without gaps if it can be written at
all. -/
theorem writable_of_made {start : Message} (source : start.Source scheme) {edits : List Edit}
    (genuine : ∀ a, .add a ∈ edits → a.isGenuine = true)
    (encoded : encode scheme (start.build edits) = .ok packet) : (start.build edits).Writable :=
  writable_of_encode (Message.follows_source source edits).wellFormed
    (Message.not_announced_empty source genuine) encoded

/-- **Just the messages that can be written have a packet**, whatever was done to make them
(`Judged`). Each slot of a packet has what its own call has passed, so that a slot without a value
has no packet. -/
theorem encode_judged (keys : scheme.HasKeys) {start : Message} (source : start.Source scheme)
    {edits : List Edit} (genuine : ∀ a, .add a ∈ edits → a.isGenuine = true) :
    Judged scheme start edits := by
  have follows := Message.follows_source source edits
  refine ⟨exists_encode_iff keys follows.wellFormed (Message.not_announced_empty source genuine),
    fun k valued announced => ?_, ⟨_, Message.filledBy _ start, fun packet encoded => ?_⟩, ?_⟩
  · cases encoded : encode scheme (start.build edits) with
    | error f => exact ⟨f, rfl⟩
    | ok packet =>
        obtain ⟨i, call⟩ := List.getElem?_of_mem (List.mem_append_right
          (start.content.map Addition.plain) announced)
        obtain ⟨s, put, adds⟩ := follows.section_of_call call
        have complete :=
          (writable_of_made source genuine encoded).complete s (List.mem_of_getElem? put)
        obtain rfl := Option.some.inj adds
        cases k with
        | empty => exact absurd rfl valued
        | _ => cases complete
  · exact faithful_of_encode follows (writable_of_made source genuine encoded) encoded
  · exact failsAs_encode (fun fault _ => .inl ⟨fault, rfl⟩)
      (keys.failsAs_publicKey fun fault => .inr ⟨fault, rfl⟩) _
      (fun _ => .inl ⟨_, rfl⟩) (.inr ⟨_, rfl⟩) (keys.failsAs_sign fun fault => .inr ⟨fault, rfl⟩)

/-- A slot for a number is announced, and the number comes with the next one. -/
def outOfStep : List Edit := [.add (.announced .integer), .add (.plain (.integer 5))]

/-- An empty section and a number. -/
def inStep : List Edit := [.add (.announced .empty), .add (.plain (.integer 5))]

theorem encode_judged_steps :
    (∀ a, .add a ∈ outOfStep → a.isGenuine = true) ∧ (∀ a, .add a ∈ inStep → a.isGenuine = true) ∧
      ¬ Encodable Ed25519.scheme (Message.build {} outOfStep) ∧
      Encodable Ed25519.scheme (Message.build {} inStep) := by
  have genuine : ∀ kind a, .add a ∈ [Edit.add (.announced kind), .add (.plain (.integer 5))] →
      a.isGenuine = true := by
    intro kind a member
    rcases List.mem_cons.mp member with same | member
    · cases same
      rfl
    · cases List.mem_singleton.mp member
      rfl
  refine ⟨genuine _, genuine _, fun encodable => ?_, ?_⟩
  · have judged := encode_judged Ed25519.hasKeys (.envelope .new) (genuine .integer)
    obtain ⟨f, refused⟩ := judged.unvalued .integer (by decide) List.mem_cons_self
    obtain ⟨packet, encoded⟩ := judged.accepted.mpr encodable
    cases refused.symm.trans encoded
  · have judged := encode_judged Ed25519.hasKeys (.envelope .new) (genuine .empty)
    exact judged.accepted.mp ⟨_, rfl⟩

end Packet

end PeerMessaging
