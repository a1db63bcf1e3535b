import PeerMessaging.Proofs.Wire.Packets
import PeerMessaging.Proofs.Wire.Refusals

/-!
# How a packet is refused

A packet that is no message is at fault itself, and reading says so: it is malformed, or its key is
of no use, or its signature does not match. There is one packet that the reader takes for a mistake
of its own. The sections of a packet are added to a message by the same rules as those of a message
that is being made, and one of these rules is that the key of a signature comes first. So a packet
with such a key in a later slot is reported as a state that is not allowed, once all slots before
were read and the key itself is a good one.

What a reader fails with is put together along its steps; the one exception is followed through the
slots.
-/

namespace PeerMessaging

/-- What can be wrong with the keys and the signature of a packet. -/
inductive SignatureFault.OfPacket : SignatureFault → Prop
  | keyLength (length : Nat) : OfPacket (.publicKeyLength length)
  | keyInvalid : OfPacket .publicKeyInvalid
  | mismatch (id : Nat) : OfPacket (.mismatch id)

/-- The failure of a packet that is no message. -/
inductive Failure.OfPacket : Failure → Prop
  | decode (fault : DecodeFault) : OfPacket (.decode fault)
  | signature {fault : SignatureFault} (ofPacket : fault.OfPacket) : OfPacket (.signature fault)

variable {p : Failure → Prop}

/-- A public key that is of no use is the fault of its packet. -/
theorem Failure.OfKey.ofPacket {f : Failure} (ofKey : f.OfKey) : f.OfPacket := by
  cases ofKey with
  | length n => exact .signature (.keyLength n)
  | invalid => exact .signature .keyInvalid

/-! ## What readers fail with -/

namespace Reader

variable {α β : Type}

/-- Whatever the reader is given, it fails in a certain way if at all. -/
def Fails (p : Failure → Prop) (r : Reader α) : Prop := ∀ b, FailsAs p (r.run b)

theorem fails_pure (a : α) : (pure a : Reader α).Fails p := fun _ => .ok _

theorem fails_ofExcept {e : Except Failure α} (fails : FailsAs p e) : (ofExcept e).Fails p := by
  cases e with
  | ok a => exact fails_pure a
  | error f => exact fun _ => .error (fails f rfl)

theorem Fails.bind {r : Reader α} {f : α → Reader β} (first : r.Fails p)
    (next : ∀ a, (f a).Fails p) : (r >>= f).Fails p := by
  intro b
  rw [run_bind]
  cases read : r.run b with
  | error e => exact .error (first b e read)
  | ok step => exact next step.1 step.2

theorem Fails.ite {c : Prop} [Decidable c] {r r' : Reader α} (yes : r.Fails p)
    (no : r'.Fails p) : (if c then r else r').Fails p := by
  split
  · exact yes
  · exact no

/-- One reader fails where a second one fails, or else where a third fails on what is left. -/
def FailsLike {γ δ : Type} (r : Reader β) (head : Reader γ) (next : γ → Reader δ) : Prop :=
  ∀ b e, r.run b = .error e ↔ (head >>= next).run b = .error e

namespace FailsLike

variable {γ δ : Type} {next : γ → Reader δ}

theorem same (f : Failure) : (fail f : Reader β).FailsLike (fail f) next := fun _ _ => by
  rw [run_bind, run_fail, run_fail]
  simp

/-- A reader that only gives a result after another fails like this one. -/
theorem last (next : γ → Reader δ) (c : γ) (g : δ → β) :
    (next c >>= fun d => pure (g d)).FailsLike (pure c) next := by
  intro b e
  show _ ↔ (next c).run b = .error e
  rw [run_bind]
  cases (next c).run b <;> simp

/-- A common first step keeps two readers failing alike. -/
theorem bind {r : Reader α} {f : α → Reader β} {head : α → Reader γ}
    (each : ∀ a, (f a).FailsLike (head a) next) : (r >>= f).FailsLike (r >>= head) next := by
  intro b e
  rw [run_bind, run_bind, run_bind]
  cases r.run b with
  | error e' => simp only [Except.error.injEq]
  | ok step => exact each step.1 step.2 e

end FailsLike

variable (malformed : ∀ fault, p (.decode fault))

include malformed

theorem fails_malformed (fault : DecodeFault) : (Reader.malformed fault : Reader α).Fails p :=
  fun _ => .error (malformed fault)

/-- `take` fails because the bytes are malformed. -/
theorem fails_take (n : Nat) : (take n).Fails p := by
  intro b
  show FailsAs p (if b.length < n then _ else _)
  split
  · exact .error (malformed _)
  · exact .ok _

theorem fails_word (n : Nat) : (word n).Fails p :=
  (fails_take malformed n).bind fun _ => fails_pure _

omit malformed in
theorem Fails.times {r : Reader α} (each : r.Fails p) (n : Nat) : (times n r).Fails p := by
  induction n with
  | zero => exact fails_pure []
  | succ n ih => exact each.bind fun _ => ih.bind fun _ => fails_pure _

end Reader

open Reader

section Parts

variable (malformed : ∀ fault, p (.decode fault))

include malformed

theorem IpAddress.fails_reader : IpAddress.reader.Fails p :=
  (fails_word malformed 1).bind fun _ =>
    .ite ((fails_word malformed 4).bind fun _ => fails_pure _)
      (.ite ((fails_word malformed 16).bind fun _ => fails_pure _) (fails_malformed malformed _))

theorem Endpoint.fails_reader : Endpoint.reader.Fails p :=
  (IpAddress.fails_reader malformed).bind fun _ =>
    (fails_take malformed 4).bind fun _ => fails_pure _

theorem PeerId.fails_reader : PeerId.reader.Fails p :=
  (fails_take malformed 20).bind fun _ => fails_pure _

theorem PeerAddress.fails_relaysReader : relaysReader.Fails p := by
  refine (fails_word malformed 1).bind fun count => .ite (fails_malformed malformed _) ?_
  refine ((Endpoint.fails_reader malformed).times count).bind fun relays => ?_
  split
  · exact fails_pure _
  · exact fails_malformed malformed _

theorem PeerAddress.fails_reader (ip : IpAddress) : (reader ip).Fails p := by
  refine (PeerId.fails_reader malformed).bind fun id => ?_
  refine (fails_take malformed 5).bind fun fixed => ?_
  exact .ite ((fails_relaysReader malformed).bind fun _ => fails_pure _)
    ((fails_pure _).bind fun _ => fails_pure _)

theorem Section.fails_blobReader : blobReader.Fails p :=
  (fails_word malformed 4).bind (fails_take malformed)

theorem Section.fails_neighborReader : neighborReader.Fails p :=
  (IpAddress.fails_reader malformed).bind (PeerAddress.fails_reader malformed)

theorem Packet.fails_relayAfter (word : Nat) : (relayAfter word).Fails p :=
  .ite ((PeerId.fails_reader malformed).bind fun _ => fails_pure _) (fails_pure none)

variable {scheme : SignatureScheme} (usable : ∀ key, FailsAs p (scheme.checkPublicKey key))

include usable

/-- A public key is refused because the bytes are malformed or the scheme cannot use it. -/
theorem Section.fails_publicKeyReader : (publicKeyReader scheme).Fails p :=
  (fails_word malformed 2).bind fun length => (fails_take malformed length).bind fun key =>
    (fails_ofExcept (usable key)).bind fun _ => fails_pure key

/-- A section is refused because the bytes are malformed or its key is of no use. -/
theorem Section.fails_reader (k : ContentKind) : (reader scheme k).Fails p := by
  have key := fails_publicKeyReader malformed usable
  cases k with
  | undefined => exact fails_pure _
  | empty => exact fails_pure _
  | key => exact (fails_word malformed 20).bind fun _ => fails_pure _
  | integer => exact (fails_word malformed 4).bind fun _ => fails_pure _
  | long => exact (fails_word malformed 8).bind fun _ => fails_pure _
  | buffer => exact (fails_blobReader malformed).bind fun _ => fails_pure _
  | neighbors =>
      refine (fails_word malformed 1).bind fun count => ?_
      exact ((fails_neighborReader malformed).times count).bind fun _ => fails_pure _
  | endpoints =>
      refine (fails_word malformed 1).bind fun count => ?_
      exact ((Endpoint.fails_reader malformed).times count).bind fun _ => fails_pure _
  | publicKey => exact key.bind fun _ => fails_pure _
  | signedPublicKey => exact key.bind fun _ => fails_pure _
  | foreign kind => exact (fails_blobReader malformed).bind fun _ => fails_pure _

/-- The slots are refused for one of their sections, for a gap or for a section that comes too late.
-/
theorem Content.fails_reader (state : ∀ fault, p (.state fault)) (ks : List ContentKind)
    (gap : Bool) (c : Content) : (reader scheme gap ks c).Fails p := by
  induction ks generalizing gap c with
  | nil => exact fails_pure c
  | cons k ks ih =>
      rw [reader]
      refine .ite (ih true c) (.ite (fails_malformed malformed _) ?_)
      refine (Section.fails_reader malformed usable k).bind fun s => .bind ?_ fun c => ih false c
      cases c.append s with
      | ok longer => exact fails_pure longer
      | error fault => exact fun _ => .error (state fault)

end Parts

/-! ## A key in a later slot -/

namespace Content

variable {scheme : SignatureScheme} {c : Content} {k : ContentKind} {ks : List ContentKind}
  {b : Bytes} {fault : StateFault}

/-- After the sections in `c`, the slots of the given kinds come to a key of a signature that is not
the first section: all slots before it are in use and were read, and so was the key. -/
def LateSigner (scheme : SignatureScheme) (c : Content) (ks : List ContentKind) (b : Bytes) :
    Prop :=
  ∃ front back c' mid key left, ks = front ++ .signedPublicKey :: back ∧ .undefined ∉ front ∧
    (reader scheme false front c).run b = .ok (c', mid) ∧ c' ≠ [] ∧
    (Section.publicKeyReader scheme).run mid = .ok (key, left)

/-- The slot of a section is read, the section is added, and the other slots follow. -/
theorem run_reader_cons (used : k ≠ .undefined) :
    (reader scheme false (k :: ks) c).run b =
      match (Section.reader scheme k).run b with
      | .error f => .error f
      | .ok (s, mid) =>
        match c.append s with
        | .error fault => .error (.state fault)
        | .ok longer => (reader scheme false ks longer).run mid := by
  rw [reader, if_neg used, if_neg Bool.false_ne_true, run_bind]
  cases (Section.reader scheme k).run b with
  | error f => rfl
  | ok step =>
      obtain ⟨s, mid⟩ := step
      dsimp only
      rw [run_bind]
      cases c.append s <;> rfl

/-- A gap is followed by no section at all. -/
theorem run_reader_gap_ne (ks : List ContentKind) :
    (reader scheme true ks c).run b ≠ .error (.state fault) := by
  induction ks with
  | nil =>
      intro same
      cases same
  | cons k ks ih =>
      rw [reader]
      split
      · exact ih
      · rw [if_pos rfl]
        intro same
        cases same

/-- While a slot is free a section is refused only for a key of a signature that comes late. -/
theorem append_eq_error_iff {s : Section} (used : s.kind ≠ .undefined)
    (room : c.length < capacity) :
    c.append s = .error fault ↔
      fault = .signatureNotFirst ∧ s.kind = .signedPublicKey ∧ c ≠ [] := by
  rw [append, if_neg used, if_neg (Nat.not_le.mpr room)]
  split
  · next late => exact ⟨fun same => ⟨(Except.error.inj same).symm, late⟩, fun h => h.1 ▸ rfl⟩
  · next well => exact iff_of_false (fun same => by cases same) fun h => well h.2

/-- What is read in the slot of a signing key is a public key. -/
theorem run_reader_signer {s : Section} {mid : Bytes}
    (read : (Section.reader scheme .signedPublicKey).run b = .ok (s, mid)) :
    ∃ key, (Section.publicKeyReader scheme).run b = .ok (key, mid) := by
  obtain ⟨key, read', -⟩ := run_bind_pure_eq_ok.mp read
  exact ⟨key, read'⟩

/-- A key that is late in the first of the slots, or in the others. -/
theorem lateSigner_cons_iff (used : k ≠ .undefined) :
    LateSigner scheme c (k :: ks) b ↔
      ∃ s mid, (Section.reader scheme k).run b = .ok (s, mid) ∧
        (k = .signedPublicKey ∧ c ≠ [] ∨
          ∃ longer, c.append s = .ok longer ∧ LateSigner scheme longer ks mid) := by
  constructor
  · rintro ⟨front, back, c', mid, key, left, split, full, read, late, read'⟩
    -- the late key is in the first slot just if nothing is in front of it
    cases front with
    | nil =>
        obtain ⟨rfl, rfl⟩ := List.cons.inj split
        obtain ⟨rfl, rfl⟩ := run_pure_eq_ok.mp read
        exact ⟨.signedPublicKey key, left, run_bind_pure_eq_ok.mpr ⟨key, read', rfl⟩,
          .inl ⟨rfl, late⟩⟩
    | cons k' front =>
        obtain ⟨rfl, rfl⟩ := List.cons.inj split
        rw [run_reader_cons used] at read
        cases first : (Section.reader scheme k).run b with
        | error f => rw [first] at read; exact nomatch read
        | ok step =>
            obtain ⟨s, mid'⟩ := step
            rw [first] at read
            cases added : c.append s with
            | error fault => simp only [added] at read; exact nomatch read
            | ok longer =>
                simp only [added] at read
                exact ⟨s, mid', rfl, .inr ⟨longer, added, front, back, c', mid, key, left, rfl,
                  fun gap => full (List.mem_cons_of_mem _ gap), read, late, read'⟩⟩
  · rintro ⟨s, mid, first, ⟨rfl, late⟩ | ⟨longer, added, front, back, c', mid', key, left, rfl,
      full, read, late, read'⟩⟩
    · obtain ⟨key, read⟩ := run_reader_signer first
      exact ⟨[], ks, c, b, key, mid, rfl, List.not_mem_nil, rfl, late, read⟩
    · refine ⟨k :: front, back, c', mid', key, left, rfl, ?_, ?_, late, read'⟩
      · exact fun gap => (List.mem_cons.mp gap).elim (fun same => used same.symm) full
      · rw [run_reader_cons used, first]
        simp only [added, read]

/-- Reading a section never fails with a state that is not allowed. -/
theorem run_section_ne
    (usable : ∀ key fault, scheme.checkPublicKey key ≠ .error (.state fault)) (k : ContentKind) :
    (Section.reader scheme k).run b ≠ .error (.state fault) := by
  have keys : ∀ key, FailsAs (· ≠ .state fault) (scheme.checkPublicKey key) :=
    fun key f failed same => usable key fault (same ▸ failed)
  exact fun failed => Section.fails_reader (fun _ => Failure.noConfusion) keys k b _ failed rfl

/-- Reading the slots fails with a state that is not allowed for a key that comes late, and for
nothing else. -/
theorem run_reader_eq_state_iff
    (usable : ∀ key fault, scheme.checkPublicKey key ≠ .error (.state fault))
    (room : c.length + ks.length ≤ capacity) :
    (reader scheme false ks c).run b = .error (.state fault) ↔
      fault = .signatureNotFirst ∧ LateSigner scheme c ks b := by
  induction ks generalizing c b with
  | nil =>
      refine iff_of_false (fun same => by cases same) ?_
      rintro ⟨-, front, back, _, _, _, _, split, -⟩
      exact absurd split.symm (by simp)
  | cons k ks ih =>
      by_cases used : k = .undefined
      · subst used
        refine iff_of_false ?_ ?_
        · rw [reader, if_pos rfl]
          exact run_reader_gap_ne ks
        · rintro ⟨-, front, back, _, _, _, _, split, full, -⟩
          cases front with
          | nil => cases (List.cons.inj split).1
          | cons _ front =>
              obtain ⟨rfl, -⟩ := List.cons.inj split
              exact full List.mem_cons_self
      · rw [run_reader_cons used, lateSigner_cons_iff used]
        -- there are as many slots as a message has sections, so it is never full
        have room' : c.length < capacity := by
          rw [List.length_cons] at room
          omega
        cases read : (Section.reader scheme k).run b with
        | error f =>
            refine iff_of_false ?_ ?_
            · intro same
              cases same
              exact run_section_ne usable k read
            · rintro ⟨-, s, mid, read', -⟩
              cases read'
        | ok step =>
            obtain ⟨s, mid⟩ := step
            obtain ⟨⟨kind, -⟩, -⟩ := Section.spelled_reader used read
            have used' : s.kind ≠ .undefined := kind ▸ used
            simp only [Except.ok.injEq, Prod.mk.injEq]
            cases added : c.append s with
            | error fault' =>
                obtain ⟨rfl, signer, late⟩ := (append_eq_error_iff used' room').mp added
                constructor
                · intro same
                  cases same
                  exact ⟨rfl, s, mid, ⟨rfl, rfl⟩, .inl ⟨kind ▸ signer, late⟩⟩
                · rintro ⟨rfl, -⟩
                  rfl
            | ok longer =>
                have grown : longer.length + ks.length ≤ capacity := by
                  rw [← (append_eq_ok_iff.mp added).2, List.length_append]
                  simp only [List.length_cons, List.length_nil] at room ⊢
                  omega
                show (reader scheme false ks longer).run mid = _ ↔ _
                rw [ih grown]
                constructor
                · rintro ⟨rfl, late⟩
                  exact ⟨rfl, s, mid, ⟨rfl, rfl⟩, .inr ⟨longer, added, late⟩⟩
                · rintro ⟨rfl, _, _, ⟨rfl, rfl⟩, ⟨signer, late⟩ | ⟨_, added', late⟩⟩
                  · have refused : c.append s = .error .signatureNotFirst :=
                      (append_eq_error_iff used' room').mpr ⟨rfl, kind.trans signer, late⟩
                    rw [added] at refused
                    cases refused
                  · cases added.symm.trans added'
                    exact ⟨rfl, late⟩

end Content

/-! ## Packets -/

namespace Packet

variable {packet : Bytes} {origin destination : SocketAddress} {udp : Bool}

/-- Reads up to the sections. Gives the kinds of the slots. -/
def slotsReader (origin : SocketAddress) : Reader Slots := do
  let first ← Reader.take 9
  match MessageKind.ofCode? (wordOf first / 16 % 16) with
  | none => Reader.malformed (.unknownMessageKind (wordOf first / 16 % 16))
  | some _ =>
    let _ ← PeerAddress.reader origin.ip
    let _ ← PeerId.reader
    let packed ← Reader.word 4
    let _ ← relayAfter (wordOf first)
    return Slots.unpack (UInt32.ofNat packed)

/-- The reading of a packet comes to the key of a signature in a slot after the first. -/
def MisplacesSigner (scheme : SignatureScheme) (origin : SocketAddress) (packet : Bytes) : Prop :=
  ∃ slots rest, (slotsReader origin).run packet = .ok (slots, rest) ∧
    Content.LateSigner scheme [] slots.toList rest

theorem fails_slotsReader (malformed : ∀ fault, p (.decode fault)) (origin : SocketAddress) :
    (slotsReader origin).Fails p := by
  refine (fails_take malformed 9).bind fun first => ?_
  split
  · exact fails_malformed malformed _
  · refine (PeerAddress.fails_reader malformed _).bind fun _ => ?_
    refine (PeerId.fails_reader malformed).bind fun _ => ?_
    refine (fails_word malformed 4).bind fun _ => ?_
    exact (fails_relayAfter malformed _).bind fun _ => fails_pure _

/-- Reading a packet fails before its sections or in them. -/
theorem unsignedReader_failsLike (scheme : SignatureScheme) :
    (unsignedReader scheme origin destination udp).FailsLike (slotsReader origin)
      fun slots => Content.reader scheme false slots.toList [] := by
  rw [unsignedReader_eq, slotsReader]
  refine FailsLike.bind fun first => ?_
  cases MessageKind.ofCode? (wordOf first / 16 % 16) with
  | none => exact .same _
  | some kind =>
      unfold partsReader
      refine .bind fun source => .bind fun target => .bind fun packed => .bind fun relay => ?_
      exact .last (fun slots : Slots => Content.reader scheme false slots.toList []) _
        (assembled origin destination udp first kind source target relay)

/-- Reading a packet fails with a state that is not allowed for a misplaced key, and for nothing
else. -/
theorem run_unsigned_eq_state_iff {scheme : SignatureScheme}
    (usable : ∀ key fault, scheme.checkPublicKey key ≠ .error (.state fault)) {fault : StateFault} :
    (unsignedReader scheme origin destination udp).run packet = .error (.state fault) ↔
      fault = .signatureNotFirst ∧ MisplacesSigner scheme origin packet := by
  rw [unsignedReader_failsLike scheme packet, run_bind, MisplacesSigner]
  cases read : (slotsReader origin).run packet with
  | error e =>
      have never := fails_slotsReader (p := (· ≠ .state fault)) (fun _ => Failure.noConfusion)
        origin packet e read
      exact iff_of_false (fun same => never (Except.error.inj same)) (by simp)
  | ok step =>
      obtain ⟨slots, rest⟩ := step
      have room : ([] : Content).length + slots.toList.length ≤ Content.capacity := by
        rw [Vector.length_toList]
        exact Nat.le_refl _
      refine (Content.run_reader_eq_state_iff usable room).trans (and_congr_right fun _ => ?_)
      constructor
      · exact fun late => ⟨slots, rest, rfl, late⟩
      · rintro ⟨_, _, ⟨rfl, rfl⟩, late⟩
        exact late

/-- Reading a packet fails because of the packet, or with a state that is not allowed. -/
theorem ofPacket_of_run {scheme : SignatureScheme}
    (usable : ∀ key, FailsAs Failure.OfPacket (scheme.checkPublicKey key)) {f : Failure}
    (failed : (unsignedReader scheme origin destination udp).run packet = .error f) :
    f.OfPacket ∨ ∃ fault, f = .state fault := by
  have either : ((slotsReader origin) >>= fun slots =>
      Content.reader scheme false slots.toList []).Fails
        fun f => f.OfPacket ∨ ∃ fault, f = .state fault := by
    refine (fails_slotsReader (fun fault => .inl (.decode fault)) origin).bind fun slots => ?_
    exact Content.fails_reader (fun fault => .inl (.decode fault))
      (fun key f failed => .inl (usable key f failed)) (fun fault => .inr ⟨fault, rfl⟩) _ _ _
  exact either packet f ((unsignedReader_failsLike scheme packet f).mp failed)

/-- Bytes behind a message are the fault of the packet. -/
theorem ofPacket_complete (m : Message) (rest : Bytes) :
    FailsAs Failure.OfPacket (complete m rest) := by
  rw [complete]
  split
  · exact .ok _
  · exact .error (.decode _)

/-- What is wrong with a packet that was read up to its signature is its own fault. -/
theorem decode_eq_error {scheme : SignatureScheme} (keys : scheme.HasKeys) {f : Failure}
    (refused : decode scheme packet origin destination udp = .error f) :
    (unsignedReader scheme origin destination udp).run packet = .error f ∨ f.OfPacket := by
  rw [decode] at refused
  split at refused
  · next read =>
    cases refused
    exact .inl read
  · right
    revert f
    show FailsAs Failure.OfPacket _
    split
    · split
      · next short => exact .error (fails_take .decode _ _ _ short)
      · next taken =>
        dsimp only
        have size := (run_take_eq_ok.mp taken).1
        split
        · next failed => exact .error (keys.verify _ _ _ size _ failed).ofPacket
        · exact .error (.signature (.mismatch _))
        · exact ofPacket_complete _ _
    · exact ofPacket_complete _ _

/-- A failure of reading is one of decoding, whatever else happens to a packet. -/
theorem decode_eq_error_of_run {scheme : SignatureScheme} {f : Failure}
    (failed : (unsignedReader scheme origin destination udp).run packet = .error f) :
    decode scheme packet origin destination udp = .error f := by
  rw [decode, failed]

/-- **A refusal is the fault of the packet, but for a misplaced key**: decoding any bytes fails
because they are malformed, for a key of no use or for a signature that does not match
(`Failure.OfPacket`). It fails with a state that is not allowed exactly if the packet
`MisplacesSigner`, the key of a signature in a slot after the first. -/
theorem decode_refused {scheme : SignatureScheme} (keys : scheme.HasKeys) (packet : Bytes)
    (origin destination : SocketAddress) (udp : Bool) :
    (∀ f, decode scheme packet origin destination udp = .error f →
      f.OfPacket ∨ f = .state .signatureNotFirst) ∧
    (decode scheme packet origin destination udp = .error (.state .signatureNotFirst) ↔
      MisplacesSigner scheme origin packet) := by
  -- the check of a key is the one step of the reader that belongs to the scheme
  have usable (key : Bytes) : FailsAs Failure.OfPacket (scheme.checkPublicKey key) :=
    (keys.publicKey key).imp fun _ ofKey => ofKey.ofPacket
  have stateless (key : Bytes) (fault : StateFault) :
      scheme.checkPublicKey key ≠ .error (.state fault) :=
    fun failed => nomatch usable key _ failed
  refine ⟨fun f refused => ?_, ?_⟩
  · obtain failed | ofPacket := decode_eq_error keys refused
    · obtain ofPacket | ⟨fault, rfl⟩ := ofPacket_of_run usable failed
      · exact .inl ofPacket
      · exact .inr (congrArg _ ((run_unsigned_eq_state_iff stateless).mp failed).1)
    · exact .inl ofPacket
  · constructor
    · intro refused
      obtain failed | ofPacket := decode_eq_error keys refused
      · exact ((run_unsigned_eq_state_iff stateless).mp failed).2
      · cases ofPacket
    · intro misplaces
      exact decode_eq_error_of_run ((run_unsigned_eq_state_iff stateless).mpr ⟨rfl, misplaces⟩)

/-- A packet that ends early is at fault itself, and no key is misplaced in it. -/
theorem decode_refused_short : ∃ f,
    decode Ed25519.scheme [1, 2, 3] PeerAddress.unknown.udpSocket PeerAddress.unknown.udpSocket true
        = .error f ∧
      (f.OfPacket ∨ f = .state .signatureNotFirst) ∧
      ¬ MisplacesSigner Ed25519.scheme PeerAddress.unknown.udpSocket [1, 2, 3] := by
  have refused : decode Ed25519.scheme [1, 2, 3] PeerAddress.unknown.udpSocket
      PeerAddress.unknown.udpSocket true = .error (.decode (.truncated 9 3)) := rfl
  obtain ⟨kinds, misplaces⟩ := decode_refused Ed25519.hasKeys [1, 2, 3]
    PeerAddress.unknown.udpSocket PeerAddress.unknown.udpSocket true
  refine ⟨_, refused, kinds _ refused, fun misplaced => ?_⟩
  exact nomatch refused.symm.trans (misplaces.mpr misplaced)

/-- A packet with an empty section first and the key of a signature second. The key is a good one,
and all else is in order. -/
def misplacedKey : Bytes :=
  Bytes.ofNat 4 7 ++ Bytes.ofNat 4 0x100 ++ [5] ++ (PeerId.ofBytes (Bytes.ofNat 20 1)).bytes
    ++ [0] ++ Bytes.ofNat 2 7700 ++ Bytes.ofNat 2 7701
    ++ (PeerId.ofBytes (Bytes.ofNat 20 2)).bytes ++ Bytes.ofNat 4 0x1A000000
    ++ Bytes.ofNat 2 32
    ++ Bytes.ofNat 32 0xD75A980182B10AB7D54BFED3C964073A0EE172F3DAA62325AF021A68F707511A

/-- The key in the second slot is reported as a state that is not allowed, neither as malformed nor
as a bad signature. -/
theorem decode_misplacedKey :
    decode Ed25519.scheme misplacedKey ⟨.v4 0x0A000001#32, 1000, 0⟩ ⟨.v4 0x0A000002#32, 2000, 0⟩
      true = .error (.state .signatureNotFirst) := by
  have refused : (match decode Ed25519.scheme misplacedKey ⟨.v4 0x0A000001#32, 1000, 0⟩
      ⟨.v4 0x0A000002#32, 2000, 0⟩ true with
    | .error f => decide (f = .state .signatureNotFirst)
    | .ok _ => false) = true := by decide +kernel
  split at refused
  · next same => rw [same, of_decide_eq_true refused]
  · cases refused

end Packet

end PeerMessaging
