import PeerMessaging.Proofs.Gather.Refinement
import PeerMessaging.Proofs.Wire.Reading
import PeerMessaging.Wire.Frame

/-!
# Packets on a stream that is cut anywhere

A stream arrives in chunks, and a chunk may end inside a length, inside a packet or behind several
of them. The reader puts each chunk behind what it still has and takes out every packet that is
complete. Cutting changes nothing: the packets, the bytes that are left and the length that is
refused, if one is, are those of the whole stream taken at once. So the packets that were written
come out again, in order and with nothing left over.

All of it rests on what one request for a packet does. It is said once for a buffer that begins
with a length, and a buffer without one is too short to ask.
-/

namespace PeerMessaging.Framing

variable {f : Framing}

/-! ## One request -/

/-- A buffer is too short for a length, or it begins with one. -/
theorem short_or_exists_size (buffer : Bytes) :
    buffer.length < 4 ∨ ∃ n tail, n < 256 ^ 4 ∧ buffer = Bytes.ofNat 4 n ++ tail := by
  by_cases short : buffer.length < 4
  · exact .inl short
  · right
    have four : (buffer.take 4).length = 4 := by
      rw [List.length_take]
      omega
    refine ⟨Bytes.toNat (buffer.take 4), buffer.drop 4, ?_, ?_⟩
    · have below := Bytes.toNat_lt (buffer.take 4)
      rwa [four] at below
    · have written := Bytes.ofNat_toNat (buffer.take 4)
      rw [four] at written
      rw [written, List.take_append_drop]

/-- As long as the length is incomplete nothing is pulled. -/
theorem pull_of_short {buffer : Bytes} (short : buffer.length < 4) :
    f.pull buffer = (.ok none, buffer) :=
  if_pos short

/-- What a buffer that begins with a length gives. -/
theorem pull_size {n : Nat} (small : n < 256 ^ 4) (tail : Bytes) :
    f.pull (Bytes.ofNat 4 n ++ tail) =
      if f.maxSize < n then (.error (.oversizedPacket n), Bytes.ofNat 4 n ++ tail)
      else if tail.length < n then (.ok none, Bytes.ofNat 4 n ++ tail)
      else (.ok (some (tail.take n)), tail.drop n) := by
  have width : (Bytes.ofNat 4 n).length = 4 := Bytes.length_ofNat 4 n
  have size : Bytes.toNat ((Bytes.ofNat 4 n ++ tail).take 4) = n := by
    rw [List.take_left' width, Bytes.toNat_ofNat_of_lt small]
  have long : ¬ (Bytes.ofNat 4 n ++ tail).length < 4 := by
    rw [List.length_append, width]
    omega
  rw [pull, if_neg long, size]
  dsimp only
  rw [List.drop_left' width, List.length_append, width]
  simp only [Nat.add_lt_add_iff_left]

/-- Nothing is taken unless a packet is given. -/
theorem snd_pull {buffer : Bytes} (none : ∀ packet, (f.pull buffer).1 ≠ .ok (some packet)) :
    (f.pull buffer).2 = buffer := by
  rcases short_or_exists_size buffer with short | ⟨n, tail, small, rfl⟩
  · rw [pull_of_short short]
  · rw [pull_size small] at none ⊢
    by_cases large : f.maxSize < n
    · rw [if_pos large]
    rw [if_neg large] at none ⊢
    by_cases incomplete : tail.length < n
    · rw [if_pos incomplete]
    · rw [if_neg incomplete] at none
      exact absurd rfl (none _)

/-- Only a length beyond the limit is refused, and it is refused again whatever arrives. -/
theorem pull_append_of_error {buffer : Bytes} {e : Failure}
    (refused : (f.pull buffer).1 = .error e) (more : Bytes) :
    (∃ n, f.maxSize < n ∧ e = .oversizedPacket n) ∧
      f.pull (buffer ++ more) = (.error e, buffer ++ more) := by
  rcases short_or_exists_size buffer with short | ⟨n, tail, small, rfl⟩
  · rw [pull_of_short short] at refused
    exact nomatch refused
  · rw [pull_size small] at refused
    by_cases large : f.maxSize < n
    · rw [if_pos large] at refused
      obtain rfl := Except.error.inj refused
      rw [List.append_assoc, pull_size small, if_pos large]
      exact ⟨⟨n, large, rfl⟩, rfl⟩
    · rw [if_neg large] at refused
      split at refused
      · exact nomatch refused
      · exact nomatch refused

/-- A packet that is complete stays so, whatever arrives behind it. -/
theorem pull_append_of_packet {buffer packet rest : Bytes}
    (given : f.pull buffer = (.ok (some packet), rest)) (more : Bytes) :
    f.pull (buffer ++ more) = (.ok (some packet), rest ++ more) := by
  rcases short_or_exists_size buffer with short | ⟨n, tail, small, rfl⟩
  · rw [pull_of_short short] at given
    exact nomatch given
  · rw [pull_size small] at given
    rw [List.append_assoc, pull_size small]
    by_cases large : f.maxSize < n
    · rw [if_pos large] at given
      exact nomatch given
    rw [if_neg large] at given ⊢
    by_cases incomplete : tail.length < n
    · rw [if_pos incomplete] at given
      exact nomatch given
    · rw [if_neg incomplete] at given
      obtain ⟨first, rfl⟩ := Prod.mk.inj given
      obtain rfl := Option.some.inj (Except.ok.inj first)
      rw [if_neg (by rw [List.length_append]; omega), List.take_append_of_le_length (by omega),
        List.drop_append_of_le_length (by omega)]

/-- A packet of fitting size is given back from behind its length. -/
theorem pull_frame {packet : Bytes} (fits : packet.length ≤ f.maxSize)
    (small : packet.length < 256 ^ 4) (rest : Bytes) :
    f.pull (Bytes.ofNat 4 packet.length ++ (packet ++ rest)) = (.ok (some packet), rest) := by
  rw [pull_size small, if_neg (Nat.not_lt.mpr fits), if_neg (by rw [List.length_append]; omega),
    List.take_left, List.drop_left]

/-! ## All packets of a buffer -/

/-- One request after another, up to the first that gives no packet. -/
theorem decodeAll_eq (f : Framing) (buffer : Bytes) :
    f.decodeAll buffer = match f.decode buffer with
      | .error e => ([], buffer, some e)
      | .ok none => ([], buffer, none)
      | .ok (some (packet, rest)) =>
        (packet :: (f.decodeAll rest).1, (f.decodeAll rest).2) := by
  rw [decodeAll]
  split
  · rename_i refused
    rw [refused]
  · rename_i incomplete
    rw [incomplete]
  · rename_i given
    rw [given]

/-- A packet that is given is given with more bytes as well. -/
theorem decode_append_of_packet {buffer packet rest : Bytes}
    (given : f.decode buffer = .ok (some (packet, rest))) (more : Bytes) :
    f.decode (buffer ++ more) = .ok (some (packet, rest ++ more)) := by
  rw [decode, pull_append_of_packet (pull_of_decode given)]

/-- The packets of a longer buffer are those that were there, and then those of what was left
with what came behind it. -/
theorem decodeAll_append (f : Framing) (buffer more : Bytes) :
    f.decodeAll (buffer ++ more)
      = ((f.decodeAll buffer).1 ++ (f.decodeAll ((f.decodeAll buffer).2.1 ++ more)).1,
        (f.decodeAll ((f.decodeAll buffer).2.1 ++ more)).2) := by
  induction buffer using decodeAll.induct f with
  | case1 buffer e refused =>
      rw [decodeAll_eq f buffer, refused]
      rfl
  | case2 buffer incomplete =>
      rw [decodeAll_eq f buffer, incomplete]
      rfl
  | case3 buffer packet rest given _ _ _ _ ih =>
      rw [decodeAll_eq f (buffer ++ more), decode_append_of_packet given, decodeAll_eq f buffer,
        given]
      dsimp only
      rw [ih]
      rfl

/-- What is left gives no packet, and it is refused if it was. -/
theorem decodeAll_left (f : Framing) (buffer : Bytes) :
    f.decodeAll (f.decodeAll buffer).2.1
      = ([], (f.decodeAll buffer).2.1, (f.decodeAll buffer).2.2) := by
  induction buffer using decodeAll.induct f with
  | case1 buffer e refused =>
      rw [decodeAll_eq f buffer, refused]
      dsimp only
      rw [decodeAll_eq f buffer, refused]
  | case2 buffer incomplete =>
      rw [decodeAll_eq f buffer, incomplete]
      dsimp only
      rw [decodeAll_eq f buffer, incomplete]
  | case3 buffer packet rest given _ _ _ _ ih =>
      rw [decodeAll_eq f buffer, given]
      exact ih

/-- A buffer that was refused is refused with more behind it. -/
theorem decodeAll_append_of_refused {buffer : Bytes} {e : Failure}
    (refused : (f.decodeAll buffer).2.2 = some e) (more : Bytes) :
    (∃ n, f.maxSize < n ∧ e = .oversizedPacket n) ∧
      f.decodeAll ((f.decodeAll buffer).2.1 ++ more)
        = ([], (f.decodeAll buffer).2.1 ++ more, some e) := by
  -- the refusal is that of a length with which the bytes that are left begin
  generalize bytes : (f.decodeAll buffer).2.1 = left at *
  have again := decodeAll_left f buffer
  rw [bytes, refused, decodeAll_eq] at again
  rcases answer : f.decode left with e' | _ | ⟨packet, rest⟩
  · rw [answer] at again
    obtain rfl : e' = e := Option.some.inj (congrArg (fun t => t.2.2) again)
    have pulled : (f.pull left).1 = .error e' := by
      rw [decode] at answer
      split at answer
      · rename_i pulled
        rw [pulled, Except.error.inj answer]
      · cases answer
      · cases answer
    obtain ⟨size, longer⟩ := pull_append_of_error pulled more
    refine ⟨size, ?_⟩
    rw [decodeAll_eq, decode, longer]
  · rw [answer] at again
    have unrefused := congrArg (fun t => t.2.2) again
    cases unrefused
  · rw [answer] at again
    have empty := congrArg (fun t => t.1) again
    cases empty

/-! ## Chunks -/

/-- Puts each chunk behind what is left and takes out the packets that are complete, also after a
refusal: the packets, what is left in the end, and the first refusal. -/
def feed (f : Framing) (buffer : Bytes) : List Bytes → List Bytes × Bytes × Option Failure
  | [] => ([], buffer, none)
  | chunk :: rest =>
    let (packets, left, failure) := f.decodeAll (buffer ++ chunk)
    let (more, left, later) := f.feed left rest
    (packets ++ more, left, failure.or later)

/-- The chunks give what all of them give at once. The buffer has been emptied of its packets, and
may have been refused. -/
theorem decodeAll_append_flatten (f : Framing) {chunks : List Bytes} :
    ∀ {buffer : Bytes} {before : Option Failure},
      f.decodeAll buffer = ([], buffer, before) →
      f.decodeAll (buffer ++ chunks.flatten) = ((f.feed buffer chunks).1,
        (f.feed buffer chunks).2.1, before.or (f.feed buffer chunks).2.2) := by
  induction chunks with
  | nil =>
      intro buffer before settled
      rw [List.flatten_nil, List.append_nil, settled, feed, Option.or_none]
  | cons chunk chunks ih =>
      intro buffer before settled
      rw [List.flatten_cons, ← List.append_assoc, decodeAll_append,
        ih (decodeAll_left f (buffer ++ chunk)), feed]
      cases before with
      | none => rfl
      | some e =>
          -- a buffer that was refused is refused with the chunk behind it
          have left : (f.decodeAll buffer).2.1 = buffer := by rw [settled]
          have refused : (f.decodeAll buffer).2.2 = some e := by rw [settled]
          have again := (decodeAll_append_of_refused refused chunk).2
          rw [left] at again
          rw [again]
          rfl

theorem decodeAll_nil (f : Framing) : f.decodeAll [] = ([], [], none) := by
  rw [decodeAll_eq]
  rfl

/-- Cutting a stream changes nothing. -/
theorem feed_eq (f : Framing) (chunks : List Bytes) :
    f.feed [] chunks = f.decodeAll chunks.flatten := by
  have whole := @decodeAll_append_flatten f chunks [] none (decodeAll_nil f)
  rw [List.nil_append, Option.none_or] at whole
  exact whole.symm

/-! ## Packets that were written -/

/-- Puts packets on a stream, up to the first that is refused. -/
def pushAll (f : Framing) : List Gather → Bytes → Except Failure Unit × Bytes
  | [], stream => (.ok (), stream)
  | g :: rest, stream =>
    match f.push g stream with
    | (.ok (), stream) => f.pushAll rest stream
    | (.error e, stream) => (.error e, stream)

/-- A packet with its length before it. -/
def frame (packet : Bytes) : Bytes := Bytes.ofNat 4 packet.length ++ packet

/-- Parts that are appended one by one are appended as a whole. -/
theorem foldl_append (parts : List Bytes) :
    ∀ stream : Bytes, parts.foldl (fun stream part => stream ++ part) stream
      = stream ++ parts.flatten := by
  induction parts with
  | nil => intro stream; exact (List.append_nil stream).symm
  | cons part parts ih =>
      intro stream
      rw [List.foldl_cons, ih, List.flatten_cons, List.append_assoc]

/-- A composite that the framing carries. -/
structure Fits (f : Framing) (g : Gather) : Prop where
  reachable : g.Reachable
  size_le : g.size ≤ f.maxSize
  size_lt : g.size < 2 ^ 32

/-- A packet that fits has as many bytes as its parts. -/
theorem Fits.length_eq {g : Gather} (fits : f.Fits g) :
    g.size = g.toBytes.length ∧ g.parts.flatten = g.toBytes := by
  have laid := fits.reachable.laid
  have size := Gather.size_eq laid
  have small : g.parts.flatten.length < Gather.addressSpace := by
    rw [← size]
    exact Nat.lt_trans fits.size_lt (by decide)
  rw [Gather.toBytes_eq laid small]
  exact ⟨size, rfl⟩

/-- A packet that fits is pushed as a frame. -/
theorem push_of_fits {g : Gather} (fits : f.Fits g) (stream : Bytes) :
    f.push g stream = (.ok (), stream ++ frame g.toBytes) := by
  obtain ⟨size, flat⟩ := fits.length_eq
  rw [push, if_neg (Nat.not_lt.mpr fits.size_le)]
  dsimp only
  rw [foldl_append, flat, size, List.append_assoc]
  rfl

/-- Packets that fit are pushed as frames, one after the other. -/
theorem pushAll_of_fits {composites : List Gather} :
    ∀ {stream : Bytes}, (∀ g ∈ composites, f.Fits g) →
      f.pushAll composites stream
        = (.ok (), stream ++ composites.flatMap fun g => frame g.toBytes) := by
  induction composites with
  | nil => intro stream _; rw [pushAll, List.flatMap_nil, List.append_nil]
  | cons g composites ih =>
      intro stream fits
      rw [pushAll, push_of_fits (fits g (List.mem_cons_self ..))]
      dsimp only
      rw [ih fun d hd => fits d (List.mem_cons_of_mem _ hd), List.flatMap_cons, List.append_assoc]

/-- Frames of packets that fit are decoded to these packets, and nothing is left. -/
theorem decodeAll_frames {composites : List Gather} :
    (∀ g ∈ composites, f.Fits g) →
      f.decodeAll (composites.flatMap fun g => frame g.toBytes)
        = (composites.map Gather.toBytes, [], none) := by
  induction composites with
  | nil => intro _; exact decodeAll_nil f
  | cons g composites ih =>
      intro fits
      have first := fits g (List.mem_cons_self ..)
      obtain ⟨size, -⟩ := first.length_eq
      have pulled : f.pull (frame g.toBytes ++ composites.flatMap fun g => frame g.toBytes)
          = (.ok (some g.toBytes), composites.flatMap fun g => frame g.toBytes) := by
        rw [frame, List.append_assoc]
        exact pull_frame (size ▸ first.size_le) (size ▸ first.size_lt) _
      rw [List.flatMap_cons, decodeAll_eq, decode, pulled]
      dsimp only
      rw [ih fun d hd => fits d (List.mem_cons_of_mem _ hd)]
      rfl

/-- What is refused to be written leaves the stream alone. -/
theorem snd_push {g : Gather} {stream : Bytes} {e : Failure}
    (refused : (f.push g stream).1 = .error e) :
    e = .oversizedPacket g.size ∧ (f.push g stream).2 = stream := by
  rw [push] at refused ⊢
  split at refused
  · rename_i large
    rw [if_pos large]
    exact ⟨(Except.error.inj refused).symm, rfl⟩
  · exact nomatch refused

/-! ## The whole framing -/

/-- What holds of a framing, whatever its limit. -/
structure Transparent (f : Framing) : Prop where
  carries : ∀ composites : List Gather, (∀ g ∈ composites, f.Fits g) →
    ∃ stream, f.pushAll composites [] = (.ok (), stream) ∧
      ∀ chunks : List Bytes, chunks.flatten = stream →
        f.feed [] chunks = (composites.map Gather.toBytes, [], none)
  uncut : ∀ chunks chunks' : List Bytes, chunks.flatten = chunks'.flatten →
    f.feed [] chunks = f.feed [] chunks'
  oversized : ∀ (chunks : List Bytes) (e : Failure), (f.feed [] chunks).2.2 = some e →
    ∃ n, f.maxSize < n ∧ e = .oversizedPacket n
  waits : ∀ buffer : Bytes, (∀ packet, (f.pull buffer).1 ≠ .ok (some packet)) →
    (f.pull buffer).2 = buffer
  refuses : ∀ (buffer more : Bytes) (e : Failure), (f.pull buffer).1 = .error e →
    f.pull (buffer ++ more) = (.error e, buffer ++ more)
  unwritten : ∀ (g : Gather) (stream : Bytes) (e : Failure), (f.push g stream).1 = .error e →
    e = .oversizedPacket g.size ∧ (f.push g stream).2 = stream

/-- **A framing does not depend on how the stream is cut**: packets up to any limit come back from
their frames, in whichever pieces these arrive, and one above the limit leaves the buffer as it was
(`Transparent`). -/
theorem transparent (f : Framing) : f.Transparent where
  carries := by
    intro composites fits
    refine ⟨_, pushAll_of_fits fits, ?_⟩
    intro chunks cut
    rw [feed_eq, cut, List.nil_append, decodeAll_frames fits]
  uncut := by
    intro chunks chunks' same
    rw [feed_eq, feed_eq, same]
  oversized := by
    intro chunks e refused
    rw [feed_eq] at refused
    exact (decodeAll_append_of_refused refused []).1
  waits := fun buffer none => snd_pull none
  refuses := fun buffer more e refused => (pull_append_of_error refused more).2
  unwritten := fun g stream e refused => snd_push refused

/-- An empty packet and one of two pieces. -/
def somePackets : List Gather := [.ofLimit 0, (Gather.ofLimit 2).run [.add [1], .add [2]]]

/-- The first length is cut in two, and so are the second length and its packet. -/
theorem transparent_cut :
    (Framing.mk 4).feed [] [[0, 0], [0, 0, 0, 0, 0], [2, 1], [], [2]]
      = ([[], [1, 2]], [], none) := by
  have fits : ∀ g ∈ somePackets, (Framing.mk 4).Fits g := by
    intro g hg
    rcases List.mem_cons.mp hg with rfl | hg
    · exact ⟨⟨0, [], rfl⟩, by decide, by decide⟩
    · obtain rfl := List.mem_singleton.mp hg
      exact ⟨⟨2, [.add [1], .add [2]], rfl⟩, by decide, by decide⟩
  obtain ⟨stream, pushed, all⟩ := (transparent ⟨4⟩).carries somePackets fits
  have written : [0, 0, 0, 0, 0, 0, 0, 2, 1, 2] = stream := congrArg Prod.snd pushed
  have flat : somePackets.map Gather.toBytes = [[], [1, 2]] := by decide +kernel
  rw [← flat]
  exact all [[0, 0], [0, 0, 0, 0, 0], [2, 1], [], [2]] written

end PeerMessaging.Framing
