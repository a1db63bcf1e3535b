import PeerMessaging.Proofs.Wire.RoundTrip

/-!
# A packet tells where it ends

Every reader takes its bytes off the front of whatever follows them, and as long as one of them is
missing it says so and nothing else. This is put together along the steps of a reader, so it holds
of a whole packet without its signature, and the signature has a length of its own. Hence a packet
that is accepted can neither be cut short nor be made longer.
-/

namespace PeerMessaging

namespace Reader

variable {α β : Type}

/-- The reader reports that bytes are missing. -/
def Starves (r : Reader α) (b : Bytes) : Prop :=
  ∃ need left, r.run b = .error (.decode (.truncated need left))

/-- The reader finds its end by itself: what it takes it takes off anything, and of a part of that
it reports that bytes are missing. -/
def Delimited (r : Reader α) : Prop :=
  ∀ ⦃b a rest⦄, r.run b = .ok (a, rest) → ∃ front, b = front ++ rest ∧ r.Reads front a ∧
    ∀ cut more, front = cut ++ more → more ≠ [] → r.Starves cut

/-- Where a reader starves, everything that begins with it starves. -/
theorem Starves.bind {r : Reader α} {b : Bytes} (h : r.Starves b) (f : α → Reader β) :
    (r >>= f).Starves b := by
  obtain ⟨need, left, starved⟩ := h
  refine ⟨need, left, ?_⟩
  rw [run_bind, starved]

theorem delimited_pure (a : α) : (pure a : Reader α).Delimited := by
  intro b a' rest h
  obtain ⟨rfl, rfl⟩ := run_pure_eq_ok.mp h
  refine ⟨[], rfl, reads_pure a, fun cut more parts missing => ?_⟩
  exact absurd (List.append_eq_nil_iff.mp parts.symm).2 missing

theorem delimited_malformed (fault : DecodeFault) : (malformed fault : Reader α).Delimited :=
  fun _ _ _ h => absurd h run_malformed_ne_ok

theorem delimited_ofExcept (e : Except Failure α) : (ofExcept e).Delimited := by
  cases e with
  | error f => exact fun _ _ _ h => nomatch h
  | ok a => exact delimited_pure a

/-- `take` needs its bytes and nothing behind them. -/
theorem delimited_take (n : Nat) : (take n).Delimited := by
  intro b front rest h
  obtain ⟨width, rfl⟩ := run_take_eq_ok.mp h
  refine ⟨front, rfl, reads_take width, fun cut more parts missing => ?_⟩
  have short : cut.length < n := by
    have some_ := List.length_pos_iff.mpr missing
    rw [← width, parts, List.length_append]
    omega
  exact ⟨n, cut.length, if_pos short⟩

theorem Delimited.bind {r : Reader α} {f : α → Reader β} (first : r.Delimited)
    (second : ∀ a, (f a).Delimited) : (r >>= f).Delimited := by
  intro b c rest h
  obtain ⟨a, mid, run, run'⟩ := run_bind_eq_ok.mp h
  obtain ⟨front, rfl, reads, starves⟩ := first run
  obtain ⟨back, rfl, reads', starves'⟩ := second a run'
  refine ⟨front ++ back, (List.append_assoc ..).symm, reads.bind reads', ?_⟩
  intro cut more parts missing
  -- the cut lies within what the first reader takes, or behind it
  rcases List.append_eq_append_iff.mp parts with ⟨tail, rfl, rfl⟩ | ⟨tail, rfl, rfl⟩
  · obtain ⟨need, left, starved⟩ := starves' tail more rfl missing
    refine ⟨need, left, ?_⟩
    rw [reads.run_step, starved]
  · cases tail with
    | nil =>
        -- the first reader has all that it needs, and the second one nothing
        obtain ⟨need, left, starved⟩ := starves' [] back rfl missing
        refine ⟨need, left, ?_⟩
        have read := reads.run_step f []
        rw [List.append_nil, List.append_nil] at read
        rw [read, starved]
    | cons x tail => exact (starves cut (x :: tail) rfl (List.cons_ne_nil x tail)).bind f

theorem Delimited.ite {c : Prop} [Decidable c] {r r' : Reader α} (yes : r.Delimited)
    (no : r'.Delimited) : (if c then r else r').Delimited := by
  split
  · exact yes
  · exact no

theorem delimited_word (n : Nat) : (word n).Delimited :=
  (delimited_take n).bind fun b => delimited_pure b.toNat

theorem Delimited.times {r : Reader α} (h : r.Delimited) : ∀ n, (times n r).Delimited := by
  intro n
  induction n with
  | zero => exact delimited_pure []
  | succ n ih => exact h.bind fun a => ih.bind fun rest => delimited_pure (a :: rest)

end Reader

open Reader

/-! ## The parts of a packet -/

theorem IpAddress.delimited_reader : IpAddress.reader.Delimited := by
  refine (delimited_word 1).bind fun marker => Delimited.ite ?_ (Delimited.ite ?_ ?_)
  · exact (delimited_word 4).bind fun bits => delimited_pure _
  · exact (delimited_word 16).bind fun bits => delimited_pure _
  · exact delimited_malformed _

theorem Endpoint.delimited_reader : Endpoint.reader.Delimited :=
  IpAddress.delimited_reader.bind fun _ => (delimited_take 4).bind fun _ => delimited_pure _

theorem PeerId.delimited_reader : PeerId.reader.Delimited :=
  (delimited_take 20).bind fun _ => delimited_pure _

namespace PeerAddress

theorem delimited_relaysReader : relaysReader.Delimited := by
  refine (delimited_word 1).bind fun count => Delimited.ite (delimited_malformed _) ?_
  refine (Endpoint.delimited_reader.times count).bind fun relays => ?_
  split
  · exact delimited_pure _
  · exact delimited_malformed _

/-- The reader of a peer is delimited, with or without relays. -/
theorem delimited_reader (ip : IpAddress) : (reader ip).Delimited := by
  rw [reader_eq]
  refine PeerId.delimited_reader.bind fun id => (delimited_take 5).bind fun fixed => ?_
  refine Delimited.bind ?_ fun relays => delimited_pure _
  exact Delimited.ite delimited_relaysReader (delimited_pure _)

end PeerAddress

namespace Section

theorem delimited_blobReader : blobReader.Delimited := (delimited_word 4).bind delimited_take

theorem delimited_publicKeyReader (scheme : SignatureScheme) :
    (publicKeyReader scheme).Delimited :=
  (delimited_word 2).bind fun length => (delimited_take length).bind fun _ =>
    (delimited_ofExcept _).bind fun _ => delimited_pure _

theorem delimited_neighborReader : neighborReader.Delimited :=
  IpAddress.delimited_reader.bind PeerAddress.delimited_reader

theorem delimited_reader (scheme : SignatureScheme) (k : ContentKind) :
    (reader scheme k).Delimited := by
  cases k with
  | undefined => exact delimited_pure _
  | empty => exact delimited_pure _
  | key => exact (delimited_word 20).bind fun _ => delimited_pure _
  | integer => exact (delimited_word 4).bind fun _ => delimited_pure _
  | long => exact (delimited_word 8).bind fun _ => delimited_pure _
  | buffer => exact delimited_blobReader.bind fun _ => delimited_pure _
  | neighbors =>
      refine (delimited_word 1).bind fun count => ?_
      exact (delimited_neighborReader.times count).bind fun _ => delimited_pure _
  | endpoints =>
      refine (delimited_word 1).bind fun count => ?_
      exact (Endpoint.delimited_reader.times count).bind fun _ => delimited_pure _
  | publicKey => exact (delimited_publicKeyReader scheme).bind fun _ => delimited_pure _
  | signedPublicKey => exact (delimited_publicKeyReader scheme).bind fun _ => delimited_pure _
  | foreign kind => exact delimited_blobReader.bind fun _ => delimited_pure _

end Section

theorem Content.delimited_reader (scheme : SignatureScheme) (ks : List ContentKind) :
    ∀ gap c, (Content.reader scheme gap ks c).Delimited := by
  induction ks with
  | nil => intro gap c; exact delimited_pure c
  | cons k ks ih =>
      intro gap c
      rw [Content.reader]
      refine Delimited.ite (ih true c) (Delimited.ite (delimited_malformed _) ?_)
      refine (Section.delimited_reader scheme k).bind fun s => ?_
      exact (delimited_ofExcept _).bind fun longer => ih false longer

namespace Packet

variable {scheme : SignatureScheme} {origin destination : SocketAddress} {udp : Bool}

theorem delimited_partsReader (first : Bytes) (kind : MessageKind) :
    (partsReader scheme origin destination udp first kind).Delimited := by
  refine (PeerAddress.delimited_reader _).bind fun source => ?_
  refine PeerId.delimited_reader.bind fun target => (delimited_word 4).bind fun packed => ?_
  refine Delimited.bind (Delimited.ite ?_ (delimited_pure none)) fun relay => ?_
  · exact PeerId.delimited_reader.bind fun id => delimited_pure (some id)
  · exact (Content.delimited_reader scheme _ _ _).bind fun content => delimited_pure _

theorem delimited_unsignedReader :
    (unsignedReader scheme origin destination udp).Delimited := by
  rw [unsignedReader_eq]
  refine (delimited_take 9).bind fun first => ?_
  cases MessageKind.ofCode? (wordOf first / 16 % 16) with
  | none => exact delimited_malformed _
  | some kind => exact delimited_partsReader first kind

/-! ## The whole packet -/

/-- Bytes behind a message are refused, and counted. -/
theorem complete_of_ne_nil {m : Message} {rest : Bytes} (more : rest ≠ []) :
    complete m rest = .error (.decode (.trailing rest.length)) := by
  cases rest with
  | nil => exact absurd rfl more
  | cons x rest => rfl

/-- Bytes behind an accepted packet are reported, all of them and nothing else. -/
theorem decode_append {p x : Bytes} {m : Message}
    (accepted : decode scheme p origin destination udp = .ok m) (more : x ≠ []) :
    decode scheme (p ++ x) origin destination udp
      = .error (.decode (.trailing x.length)) := by
  obtain ⟨m', rest, read, ends⟩ := decode_eq_ok_iff.mp accepted
  obtain ⟨front, rfl, reads, -⟩ := delimited_unsignedReader read
  have read' := reads (rest ++ x)
  rw [List.append_assoc, decode, read']
  dsimp only
  rcases ends with ⟨plain, rfl, rfl⟩ | ⟨signed, rfl, width, good⟩
  · rw [plain, if_neg Bool.false_ne_true, List.nil_append]
    exact complete_of_ne_nil more
  · -- the signature covers the same bytes as before
    rw [signed, if_pos rfl, run_take_append width]
    rw [List.length_append, Nat.add_sub_cancel, List.take_left] at good ⊢
    dsimp only
    rw [good]
    exact complete_of_ne_nil more

/-- An accepted packet without some of its last bytes is too short. -/
theorem decode_cut {p q x : Bytes} {m : Message}
    (accepted : decode scheme p origin destination udp = .ok m) (parts : p = q ++ x)
    (missing : x ≠ []) :
    ∃ need left, decode scheme q origin destination udp
      = .error (.decode (.truncated need left)) := by
  obtain ⟨m', rest, read, ends⟩ := decode_eq_ok_iff.mp accepted
  obtain ⟨front, rfl, reads, starves⟩ := delimited_unsignedReader read
  -- the cut lies before the end of the sections, or in the signature
  have inside : (∃ tail, front = q ++ tail ∧ tail ≠ []) ∨ ∃ tail, q = front ++ tail ∧
      rest = tail ++ x := by
    rcases List.append_eq_append_iff.mp parts with ⟨tail, rfl, rfl⟩ | ⟨tail, rfl, rfl⟩
    · exact .inr ⟨tail, rfl, rfl⟩
    · cases tail with
      | nil => exact .inr ⟨[], by rw [List.append_nil, List.append_nil], rfl⟩
      | cons y tail => exact .inl ⟨y :: tail, rfl, List.cons_ne_nil y tail⟩
  rcases inside with ⟨tail, rfl, missing'⟩ | ⟨tail, rfl, rfl⟩
  · obtain ⟨need, left, starved⟩ := starves q tail rfl missing'
    exact ⟨need, left, by rw [decode, starved]⟩
  · rcases ends with ⟨-, -, nothing⟩ | ⟨signed, -, width, -⟩
    · exact absurd (List.append_eq_nil_iff.mp nothing).2 missing
    · have short : tail.length < scheme.signatureSize := by
        have some_ := List.length_pos_iff.mpr missing
        rw [← width, List.length_append]
        omega
      refine ⟨scheme.signatureSize, tail.length, ?_⟩
      have starved : (Reader.take scheme.signatureSize).run tail
          = .error (.decode (.truncated scheme.signatureSize tail.length)) := if_pos short
      rw [decode, reads tail]
      dsimp only
      rw [signed, if_pos rfl, starved]

/-- **Accepted packets delimit themselves**: a packet that is cut short is refused as truncated, and
one with bytes behind it as trailing, with their number. -/
theorem decode_self_delimiting {p : Bytes} {m : Message}
    (accepted : decode scheme p origin destination udp = .ok m) :
    (∀ q x, p = q ++ x → x ≠ [] → ∃ need left,
      decode scheme q origin destination udp = .error (.decode (.truncated need left))) ∧
    ∀ x, x ≠ [] →
      decode scheme (p ++ x) origin destination udp
        = .error (.decode (.trailing x.length)) :=
  ⟨fun _ _ parts missing => decode_cut accepted parts missing,
    fun _ more => decode_append accepted more⟩

/-- The packet of a signed message, cut anywhere and made longer by two bytes. -/
theorem decode_self_delimiting_signedMessage :
    ∃ p m, decode Ed25519.scheme p relayedPeer.tcpSocket relayedPeer.udpSocket true = .ok m ∧
      m.verified = true ∧
      (∀ n, n < p.length → ∃ need left,
        decode Ed25519.scheme (p.take n) relayedPeer.tcpSocket relayedPeer.udpSocket true
          = .error (.decode (.truncated need left))) ∧
      decode Ed25519.scheme (p ++ [0, 0]) relayedPeer.tcpSocket relayedPeer.udpSocket true
        = .error (.decode (.trailing 2)) := by
  obtain ⟨packet, read⟩ :=
    exists_decode_signedMessage relayedPeer.tcpSocket relayedPeer.udpSocket true
  obtain ⟨cut, longer⟩ := decode_self_delimiting read
  refine ⟨packet, _, read, isSigned_signedMessage, fun n inside => ?_, ?_⟩
  · refine cut (packet.take n) (packet.drop n) (List.take_append_drop n _).symm ?_
    intro nothing
    exact absurd inside (Nat.not_lt.mpr (List.drop_eq_nil_iff.mp nothing))
  · exact longer [0, 0] (List.cons_ne_nil 0 [0])

end Packet

end PeerMessaging
