import PeerMessaging.Proofs.Wire.Sections

/-!
# Content survives its packets

A slot finds its value by a reference: its kind, and the number of earlier slots of the family.
As long as every section has the value that it announces, the values of a family are as many as
its slots, so each slot finds the value that was put there. Hence writing a content writes each
section by itself. A slot that is announced without a value leaves its family one value short, so
the writer refuses.

Reading goes through the kinds of all eight slots. It gives the sections that were written, and
whatever it gives are sections spelled one after the other, whose kinds are those of the slots.
-/

namespace PeerMessaging

open Bytes Reader

namespace Content

/-! ## Slots find their values -/

/-- The values that `f` picks are those of the sections of one family. -/
def Owns {α : Type} (f : Section → Option α) (family : ContentKind) : Prop :=
  ∀ s : Section, s.isComplete → ((f s).isSome ↔ s.kind.family = family)

theorem owns_key : Owns Section.key? .key := by
  intro s complete
  cases s <;> simp_all [Section.key?, Section.kind, Section.isComplete, ContentKind.family]

theorem owns_integer : Owns Section.integer? .integer := by
  intro s complete
  cases s <;> simp_all [Section.integer?, Section.kind, Section.isComplete, ContentKind.family]

theorem owns_long : Owns Section.long? .long := by
  intro s complete
  cases s <;> simp_all [Section.long?, Section.kind, Section.isComplete, ContentKind.family]

theorem owns_buffer : Owns Section.buffer? .buffer := by
  intro s complete
  cases s <;> simp_all [Section.buffer?, Section.kind, Section.isComplete, ContentKind.family]

theorem owns_neighbors : Owns Section.neighbors? .neighbors := by
  intro s complete
  cases s <;> simp_all [Section.neighbors?, Section.kind, Section.isComplete, ContentKind.family]

theorem owns_endpoints : Owns Section.endpoints? .endpoints := by
  intro s complete
  cases s <;> simp_all [Section.endpoints?, Section.kind, Section.isComplete, ContentKind.family]

theorem owns_publicKey : Owns Section.publicKey? .publicKey := by
  intro s complete
  cases s <;> simp_all [Section.publicKey?, Section.kind, Section.isComplete, ContentKind.family]

theorem owns_foreign (kind : ForeignKind) : Owns (Section.foreign? kind) (.foreign kind) := by
  intro s complete
  cases s <;> simp_all [Section.foreign?, Section.kind, Section.isComplete, ContentKind.family]

/-- As long as every section is complete there are as many values of a family as slots. -/
theorem Owns.length_filterMap {α : Type} {f : Section → Option α} {family : ContentKind}
    (owns : Owns f family) {c : Content} (complete : ∀ s ∈ c, s.isComplete) :
    (c.filterMap f).length = c.kinds.countP fun k => k.family = family := by
  rw [List.length_filterMap_eq_countP, kinds, List.countP_map]
  refine List.countP_congr fun s hs => ?_
  simp only [Function.comp_apply, decide_eq_true_eq]
  exact owns s (complete s hs)

/-- The reference of the slot after some earlier ones. -/
def referenceOf (earlier : Content) (s : Section) : Reference :=
  ⟨earlier.kinds.countP fun k => k.family = s.kind.family, s.kind⟩

/-- The reference of a slot leads to the value of its own section. -/
theorem Owns.valueAt_eq {α : Type} {f : Section → Option α} {family : ContentKind} {v : α}
    (owns : Owns f family) {earlier : Content} (complete : ∀ e ∈ earlier, e.isComplete)
    (rest : Content) (s : Section) (kind : s.kind.family = family) (own : f s = some v) :
    valueAt ((earlier ++ s :: rest).filterMap f) (referenceOf earlier s) = .ok v := by
  rw [valueAt, referenceOf, kind, ← owns.length_filterMap complete, List.filterMap_append,
    List.getElem?_append_right (Nat.le_refl _), Nat.sub_self, List.filterMap_cons_some own]
  rfl

/-- A chunk that nothing is asked for. -/
theorem ok_eq_ok_iff {a ch : Chunk} :
    (Except.ok a : Except Failure Chunk) = .ok ch ↔ True ∧ a = ch :=
  ⟨fun h => ⟨trivial, Except.ok.inj h⟩, fun h => congrArg Except.ok h.2⟩

/-- A chunk whose members are counted in one byte. -/
theorem counted_eq_ok_iff {n : Nat} {f : Failure} {a ch : Chunk} :
    (if 255 < n then .error f else .ok a : Except Failure Chunk) = .ok ch ↔ n ≤ 255 ∧ a = ch := by
  by_cases many : 255 < n
  · rw [if_pos many]
    exact ⟨nofun, fun h => absurd many (Nat.not_lt.mpr h.1)⟩
  · rw [if_neg many]
    exact ⟨fun h => ⟨Nat.le_of_not_lt many, Except.ok.inj h⟩, fun h => congrArg Except.ok h.2⟩

/-- A chunk that is checked before. -/
theorem checked_eq_ok_iff {e : Except Failure Unit} {a ch : Chunk} :
    (e >>= fun _ => .ok a) = .ok ch ↔ e = .ok () ∧ a = ch := by
  cases e with
  | error f => exact ⟨nofun, nofun⟩
  | ok u => exact ⟨fun h => ⟨rfl, Except.ok.inj h⟩, fun h => congrArg Except.ok h.2⟩

/-- What a slot writes is what its own section asks for and makes. -/
theorem chunk_eq_ok_iff {scheme : SignatureScheme} {earlier rest : Content} {s : Section}
    {ch : Chunk} (complete : ∀ e ∈ earlier, e.isComplete) (own : s.isComplete) :
    (earlier ++ s :: rest : Content).chunk scheme (referenceOf earlier s) = .ok ch ↔
      s.Sendable scheme ∧ s.chunk = ch := by
  -- in each case the value is found first, and then only its own check is left
  cases s with
  | empty => exact ok_eq_ok_iff
  | key v =>
      show (valueAt (keys _) _ >>= _) = _ ↔ _
      rw [keys, owns_key.valueAt_eq complete rest (.key v) rfl rfl]
      exact ok_eq_ok_iff
  | integer v =>
      show (valueAt (integers _) _ >>= _) = _ ↔ _
      rw [integers, owns_integer.valueAt_eq complete rest (.integer v) rfl rfl]
      exact ok_eq_ok_iff
  | long v =>
      show (valueAt (longs _) _ >>= _) = _ ↔ _
      rw [longs, owns_long.valueAt_eq complete rest (.long v) rfl rfl]
      exact ok_eq_ok_iff
  | buffer data =>
      show (valueAt (buffers _) _ >>= _) = _ ↔ _
      rw [buffers, owns_buffer.valueAt_eq complete rest (.buffer data) rfl rfl]
      exact ok_eq_ok_iff
  | neighbors peers =>
      show (valueAt (neighborSets _) _ >>= _) = _ ↔ _
      rw [neighborSets, owns_neighbors.valueAt_eq complete rest (.neighbors peers) rfl rfl]
      exact counted_eq_ok_iff
  | endpoints list =>
      show (valueAt (endpointSets _) _ >>= _) = _ ↔ _
      rw [endpointSets, owns_endpoints.valueAt_eq complete rest (.endpoints list) rfl rfl]
      exact counted_eq_ok_iff
  | publicKey data =>
      show (valueAt (publicKeys _) _ >>= _) = _ ↔ _
      rw [publicKeys, owns_publicKey.valueAt_eq complete rest (.publicKey data) rfl rfl]
      exact checked_eq_ok_iff
  | signedPublicKey data =>
      show (valueAt (publicKeys _) _ >>= _) = _ ↔ _
      rw [publicKeys, owns_publicKey.valueAt_eq complete rest (.signedPublicKey data) rfl rfl]
      exact checked_eq_ok_iff
  | foreign kind data =>
      show (valueAt (foreignData kind _) _ >>= _) = _ ↔ _
      rw [foreignData, (owns_foreign kind).valueAt_eq complete rest (.foreign kind data) rfl
        (if_pos rfl)]
      exact ok_eq_ok_iff
  | announced kind => exact nomatch own

/-- The kinds of two stretches of content are those of the first and those of the second. -/
theorem kinds_append (c d : Content) : (c ++ d : Content).kinds = c.kinds ++ d.kinds :=
  List.map_append

/-- A walk over a list that may fail succeeds when each step does. -/
theorem mapM_cons_eq_ok {α β : Type} {f : α → Except Failure β} {a : α} {rest : List α}
    {bs : List β} :
    (a :: rest).mapM f = .ok bs ↔
      ∃ b others, f a = .ok b ∧ rest.mapM f = .ok others ∧ b :: others = bs := by
  rw [List.mapM_cons]
  constructor
  · intro h
    cases first : f a with
    | error e => rw [first] at h; exact nomatch h
    | ok b =>
        cases second : rest.mapM f with
        | error e => rw [first, second] at h; exact nomatch h
        | ok others =>
            rw [first, second] at h
            exact ⟨b, others, rfl, rfl, Except.ok.inj h⟩
  · rintro ⟨b, others, first, second, rfl⟩
    rw [first, second]
    rfl

/-- The writer is on its way: some sections are behind it, and their kinds have been counted. -/
theorem chunks_suffix {scheme : SignatureScheme} {rest : Content} :
    ∀ {earlier : Content} {chs : List Chunk}, (∀ s ∈ earlier, s.isComplete) →
      (∀ s ∈ rest, s.isComplete) →
      ((referencesAfter earlier.kinds (kinds rest)).mapM
          ((earlier ++ rest : Content).chunk scheme) = .ok chs ↔
        (∀ s ∈ rest, s.Sendable scheme) ∧ rest.map Section.chunk = chs) := by
  induction rest with
  | nil =>
      intro earlier chs _ _
      exact ⟨fun h => ⟨fun s hs => (List.not_mem_nil hs).elim, Except.ok.inj h⟩,
        fun h => congrArg Except.ok h.2⟩
  | cons s rest ih =>
      intro earlier chs complete own
      have first : s.isComplete := own s (List.mem_cons_self ..)
      have later : ∀ e ∈ rest, e.isComplete := fun e he => own e (List.mem_cons_of_mem _ he)
      have complete' : ∀ e ∈ earlier ++ [s], e.isComplete := by
        intro e he
        rcases List.mem_append.mp he with he | he
        · exact complete e he
        · rw [List.mem_singleton.mp he]
          exact first
      have shifted : referencesAfter earlier.kinds (kinds (s :: rest))
          = referenceOf earlier s :: referencesAfter (kinds (earlier ++ [s])) (kinds rest) := by
        rw [kinds_append]
        rfl
      have regrouped : earlier ++ s :: rest = earlier ++ [s] ++ rest := List.append_cons ..
      -- the section moves over to the earlier ones, which stay complete
      rw [shifted, mapM_cons_eq_ok, List.forall_mem_cons, List.map_cons]
      constructor
      · rintro ⟨ch, others, h, h', rfl⟩
        obtain ⟨sendable, rfl⟩ := (chunk_eq_ok_iff complete first).mp h
        rw [regrouped] at h'
        obtain ⟨all, rfl⟩ := (ih complete' later).mp h'
        exact ⟨⟨sendable, all⟩, rfl⟩
      · rintro ⟨⟨sendable, all⟩, rfl⟩
        refine ⟨s.chunk, rest.map Section.chunk, ?_, ?_, rfl⟩
        · exact (chunk_eq_ok_iff complete first).mpr ⟨sendable, rfl⟩
        · rw [regrouped]
          exact (ih complete' later).mpr ⟨all, rfl⟩

/-- A content of complete sections is written section by section. -/
theorem chunks_eq_ok_iff {scheme : SignatureScheme} {c : Content} {chs : List Chunk}
    (complete : ∀ s ∈ c, s.isComplete) :
    c.chunks scheme = .ok chs ↔
      (∀ s ∈ c, s.Sendable scheme) ∧ c.map Section.chunk = chs :=
  @chunks_suffix scheme c [] chs (fun _ h => (List.not_mem_nil h).elim) complete

/-! ## A value that is missing is never written -/

/-- Only public keys share a family. -/
theorem family_eq_empty_iff {k : ContentKind} : k.family = .empty ↔ k = .empty := by
  cases k <;> simp [ContentKind.family]

theorem family_eq_undefined_iff {k : ContentKind} : k.family = .undefined ↔ k = .undefined := by
  cases k <;> simp [ContentKind.family]

/-- How many sections of a family have a value. -/
def stored (c : Content) (family : ContentKind) : Nat :=
  c.countP fun s => s.isComplete && s.kind.family = family

/-- A family has as many values as sections that store one. -/
theorem Owns.length_eq_stored {α : Type} {f : Section → Option α} {family : ContentKind}
    (owns : Owns f family) (blank : ∀ k, f (.announced k) = none) (c : Content) :
    (c.filterMap f).length = c.stored family := by
  rw [List.length_filterMap_eq_countP, stored]
  refine List.countP_congr fun s _ => ?_
  rw [Bool.and_eq_true, decide_eq_true_eq]
  cases s with
  | announced k =>
      rw [blank k]
      exact ⟨nofun, fun h => nomatch h.1⟩
  | _ => exact (owns _ rfl).trans ⟨fun own => ⟨rfl, own⟩, And.right⟩

/-- A slot that is written finds a value of its own family. -/
theorem index_lt_of_bind {α : Type} {f : Section → Option α} {family : ContentKind}
    (owns : Owns f family) (blank : ∀ k, f (.announced k) = none) {c : Content} {r : Reference}
    {g : α → Except Failure Chunk} {ch : Chunk}
    (written : (valueAt (c.filterMap f) r >>= g) = .ok ch) : r.index < c.stored family := by
  rw [← owns.length_eq_stored blank]
  cases found : (c.filterMap f)[r.index]? with
  | none =>
      rw [valueAt, found] at written
      exact nomatch written
  | some v => exact (List.getElem?_eq_some_iff.mp found).1

/-- A slot that is written has its value among those that are stored. -/
theorem index_lt_stored {scheme : SignatureScheme} {c : Content} {r : Reference} {ch : Chunk}
    (used : r.kind ≠ .undefined) (valued : r.kind ≠ .empty)
    (written : c.chunk scheme r = .ok ch) : r.index < c.stored r.kind.family := by
  rw [chunk] at written
  cases kind : r.kind with
  | undefined => exact absurd kind used
  | empty => exact absurd kind valued
  | key => rw [kind] at written; exact index_lt_of_bind owns_key (fun _ => rfl) written
  | integer => rw [kind] at written; exact index_lt_of_bind owns_integer (fun _ => rfl) written
  | long => rw [kind] at written; exact index_lt_of_bind owns_long (fun _ => rfl) written
  | buffer => rw [kind] at written; exact index_lt_of_bind owns_buffer (fun _ => rfl) written
  | neighbors =>
      rw [kind] at written
      exact index_lt_of_bind owns_neighbors (fun _ => rfl) written
  | endpoints =>
      rw [kind] at written
      exact index_lt_of_bind owns_endpoints (fun _ => rfl) written
  | publicKey =>
      rw [kind] at written
      exact index_lt_of_bind owns_publicKey (fun _ => rfl) written
  | signedPublicKey =>
      rw [kind] at written
      exact index_lt_of_bind owns_publicKey (fun _ => rfl) written
  | foreign k =>
      rw [kind] at written
      exact index_lt_of_bind (owns_foreign k) (fun _ => rfl) written

/-- The writer is on its way: so far no family has more slots than values. -/
theorem countP_le_stored {scheme : SignatureScheme} {c : Content} {family : ContentKind}
    (used : family ≠ .undefined) (valued : family ≠ .empty) {ks : List ContentKind} :
    ∀ {earlier : List ContentKind} {chs : List Chunk},
      earlier.countP (fun k => k.family = family) ≤ c.stored family →
      (referencesAfter earlier ks).mapM (c.chunk scheme) = .ok chs →
      (earlier ++ ks).countP (fun k => k.family = family) ≤ c.stored family := by
  induction ks with
  | nil =>
      intro earlier chs few _
      rwa [List.append_nil]
  | cons k ks ih =>
      intro earlier chs few written
      obtain ⟨ch, others, first, later, -⟩ := mapM_cons_eq_ok.mp written
      rw [List.append_cons]
      refine ih ?_ later
      rw [List.countP_append, List.countP_singleton]
      by_cases own : k.family = family
      · -- the slot of this kind found a value that no earlier slot of the family has
        rw [← own, Ne, family_eq_undefined_iff] at used
        rw [← own, Ne, family_eq_empty_iff] at valued
        have inside := index_lt_stored used valued first
        dsimp only at inside
        rw [own] at inside
        rw [if_pos (decide_eq_true own)]
        exact inside
      · rw [if_neg (by rwa [decide_eq_true_eq])]
        exact few

/-- No family stores more values than it has slots. -/
theorem stored_le (c : Content) (family : ContentKind) :
    c.stored family ≤ c.kinds.countP fun k => k.family = family := by
  rw [kinds, List.countP_map, stored]
  refine List.countP_mono_left fun s _ h => ?_
  rw [Bool.and_eq_true] at h
  exact h.2

/-- A slot that is only announced has no value. -/
theorem stored_lt_of_announced {c : Content} {k : ContentKind} (h : .announced k ∈ c) :
    c.stored k.family < c.kinds.countP fun e => e.family = k.family := by
  obtain ⟨front, back, rfl⟩ := List.append_of_mem h
  have before := stored_le front k.family
  have after := stored_le back k.family
  have own : (k :: kinds back).countP (fun e => e.family = k.family)
      = (kinds back).countP (fun e => e.family = k.family) + 1 :=
    List.countP_cons_of_pos (decide_eq_true rfl)
  rw [stored] at before after ⊢
  rw [List.countP_append, List.countP_cons_of_neg Bool.false_ne_true, kinds_append,
    List.countP_append]
  show _ < _ + (k :: kinds back).countP _
  rw [own]
  exact Nat.lt_succ_of_le (Nat.add_le_add before after)

/-- Whatever is written has the values that its slots announce. -/
theorem complete_of_chunks {scheme : SignatureScheme} {c : Content} {chs : List Chunk}
    (defined : .undefined ∉ c.kinds) (meant : .announced .empty ∉ c)
    (written : c.chunks scheme = .ok chs) : ∀ s ∈ c, s.isComplete := by
  intro s hs
  cases s with
  | announced k =>
      have valued : k ≠ .empty := by
        rintro rfl
        exact meant hs
      have used : k ≠ .undefined := by
        rintro rfl
        exact defined (List.mem_map.mpr ⟨_, hs, rfl⟩)
      rw [Ne, ← family_eq_empty_iff] at valued
      rw [Ne, ← family_eq_undefined_iff] at used
      have enough := @countP_le_stored scheme c k.family used valued c.kinds [] chs
        (Nat.zero_le _) written
      -- but one slot of the family is without a value
      exact absurd enough (Nat.not_le.mpr (stored_lt_of_announced hs))
  | _ => rfl

/-! ## Content that a message can have -/

/-- What appending keeps: no more sections than slots, no undefined one among them, and none but
the first asks for a signature. -/
structure WellFormed (c : Content) : Prop where
  fits : c.kinds.length ≤ capacity
  defined : .undefined ∉ c.kinds
  signedFirst : .signedPublicKey ∉ c.kinds.tail

theorem wellFormed_nil : WellFormed [] where
  fits := Nat.zero_le _
  defined := List.not_mem_nil
  signedFirst := List.not_mem_nil

/-- The kinds decide. -/
theorem WellFormed.congr {c d : Content} (same : d.kinds = c.kinds) (h : c.WellFormed) :
    d.WellFormed :=
  ⟨same ▸ h.fits, same ▸ h.defined, same ▸ h.signedFirst⟩

/-- The front of well-formed content is well-formed. -/
theorem WellFormed.left {c d : Content} (h : WellFormed (c ++ d)) : c.WellFormed := by
  have fits := h.fits
  have defined := h.defined
  have signedFirst := h.signedFirst
  rw [kinds_append] at fits defined signedFirst
  refine ⟨?_, ?_, ?_⟩
  · rw [List.length_append] at fits
    exact Nat.le_trans (Nat.le_add_right ..) fits
  · exact fun old => defined (List.mem_append_left _ old)
  · cases c with
    | nil => exact List.not_mem_nil
    | cons e c => exact fun old => signedFirst (List.mem_append_left _ old)

/-- A section is appended exactly if its kind is defined, a slot is free and a signing key comes
first. -/
theorem append_eq_ok_iff {c c' : Content} {s : Section} :
    c.append s = .ok c' ↔
      (s.kind ≠ .undefined ∧ c.length < capacity ∧ (s.kind = .signedPublicKey → c = [])) ∧
        c ++ [s] = c' := by
  rw [append]
  by_cases undefined : s.kind = .undefined
  · rw [if_pos undefined]
    exact ⟨nofun, fun h => absurd undefined h.1.1⟩
  by_cases full : capacity ≤ c.length
  · rw [if_neg undefined, if_pos full]
    exact ⟨nofun, fun h => absurd h.1.2.1 (Nat.not_lt.mpr full)⟩
  by_cases late : s.kind = .signedPublicKey ∧ c ≠ []
  · rw [if_neg undefined, if_neg full, if_pos late]
    exact ⟨nofun, fun h => absurd (h.1.2.2 late.1) late.2⟩
  · rw [if_neg undefined, if_neg full, if_neg late, Except.ok.injEq]
    refine ⟨fun h => ⟨⟨undefined, Nat.lt_of_not_le full, fun signed => ?_⟩, h⟩, fun h => h.2⟩
    exact Decidable.byContradiction fun more => late ⟨signed, more⟩

/-- A section can be appended exactly when the longer content is well formed. -/
theorem WellFormed.append_iff {c : Content} (h : c.WellFormed) (s : Section) :
    WellFormed (c ++ [s]) ↔
      s.kind ≠ .undefined ∧ c.length < capacity ∧ (s.kind = .signedPublicKey → c = []) := by
  have longer : kinds (c ++ [s]) = c.kinds ++ [s.kind] := kinds_append c [s]
  have count : c.kinds.length = c.length := List.length_map ..
  -- the content is well formed already, so only the last section has to be looked at
  constructor
  · intro h'
    have fits := h'.fits
    have defined := h'.defined
    have signedFirst := h'.signedFirst
    rw [longer] at fits defined signedFirst
    refine ⟨?_, ?_, ?_⟩
    · intro undefined
      exact defined (List.mem_append_right _ (List.mem_singleton.mpr undefined.symm))
    · rw [List.length_append, count] at fits
      exact fits
    · intro signed
      cases c with
      | nil => rfl
      | cons e c =>
          refine absurd (List.mem_append_right _ ?_) signedFirst
          exact List.mem_singleton.mpr signed.symm
  · rintro ⟨defined, fits, signedFirst⟩
    refine ⟨?_, ?_, ?_⟩
    · rw [longer, List.length_append, count]
      exact fits
    · rw [longer, List.mem_append, List.mem_singleton]
      rintro (old | new)
      · exact h.defined old
      · exact defined new.symm
    · cases c with
      | nil => exact List.not_mem_nil
      | cons e c =>
          rw [longer]
          intro late
          rcases List.mem_append.mp late with old | new
          · exact h.signedFirst old
          · exact nomatch signedFirst (List.mem_singleton.mp new).symm

/-- Well-formed content is what appending can make. -/
theorem WellFormed.append_eq_ok {c : Content} {s : Section} (h : WellFormed (c ++ [s])) :
    c.append s = .ok (c ++ [s]) :=
  append_eq_ok_iff.mpr ⟨(h.left.append_iff s).mp h, rfl⟩

/-- Content stays well-formed when a section is appended. -/
theorem WellFormed.of_append {c c' : Content} {s : Section} (h : c.WellFormed)
    (appended : c.append s = .ok c') : c'.WellFormed := by
  obtain ⟨allowed, rfl⟩ := append_eq_ok_iff.mp appended
  exact (h.append_iff s).mpr allowed

/-- The slots are the kinds of the sections, and undefined behind them. -/
theorem slots_eq {c : Content} (fits : c.kinds.length ≤ capacity) :
    c.slots.toList = c.kinds ++ List.replicate (capacity - c.kinds.length) .undefined := by
  rw [slots, Vector.toList_ofFn]
  refine List.ext_getElem ?_ ?_
  · rw [List.length_ofFn, List.length_append, List.length_replicate]
    exact (Nat.add_sub_of_le fits).symm
  · intro i hi hb
    rw [List.getElem_ofFn, List.getElem_append]
    by_cases used : i < c.kinds.length
    · rw [dif_pos used, List.getElem?_eq_getElem used, Option.getD_some]
    · rw [dif_neg used, List.getElem?_eq_none (Nat.le_of_not_lt used), List.getElem_replicate,
        Option.getD_none]

/-! ## Content is read as it was written -/

theorem kind_carried (s : Section) : s.carried.kind = s.kind := by
  cases s <;> rfl

/-- What a packet carries of a content. -/
def carried (c : Content) : Content := c.map Section.carried

theorem kinds_carried (c : Content) : (carried c).kinds = c.kinds := by
  rw [kinds, carried, List.map_map]
  exact List.map_congr_left fun s _ => kind_carried s

/-- Values that a packet carries as they are. -/
theorem filterMap_carried {α : Type} {f : Section → Option α} (same : ∀ s, f s.carried = f s)
    (c : Content) : (carried c).filterMap f = c.filterMap f := by
  rw [carried, List.filterMap_map]
  exact congrFun (congrArg List.filterMap (funext same)) c

theorem publicKeys_carried (c : Content) : (carried c).publicKeys = c.publicKeys :=
  filterMap_carried (fun s => by cases s <;> rfl) c

/-- Of a neighbor set, a packet carries what it carries of each neighbor. -/
theorem neighborSets_carried (c : Content) :
    (carried c).neighborSets = c.neighborSets.map fun set => set.map PeerAddress.carried := by
  rw [neighborSets, carried, List.filterMap_map, neighborSets, List.map_filterMap]
  refine congrFun (congrArg List.filterMap (funext fun s => ?_)) c
  cases s <;> rfl

/-- Unused slots take nothing and add nothing. -/
theorem reads_unused {scheme : SignatureScheme} {c : Content} {n : Nat} :
    ∀ {gap : Bool}, (reader scheme gap (List.replicate n .undefined) c).Reads [] c := by
  induction n with
  | zero => intro gap; exact reads_pure c
  | succ n ih => intro gap; exact ih

/-- The reader is on its way: some sections have been read, in the form that packets carry. -/
theorem reads_suffix {scheme : SignatureScheme} {rest : Content} {n : Nat} :
    ∀ {earlier : Content}, WellFormed (earlier ++ rest) → (∀ s ∈ rest, s.Sendable scheme) →
      (∀ s ∈ rest, s.Short) →
      (reader scheme false (kinds rest ++ List.replicate n .undefined) earlier).Reads
        (rest.flatMap Section.bytes) (earlier ++ carried rest) := by
  induction rest with
  | nil =>
      intro earlier _ _ _
      show (reader scheme false (List.replicate n .undefined) earlier).Reads [] (earlier ++ [])
      rw [List.append_nil]
      exact reads_unused
  | cons s rest ih =>
      intro earlier wellFormed sendable short
      have used : s.kind ≠ .undefined := by
        intro undefined
        refine wellFormed.defined ?_
        rw [kinds_append]
        exact List.mem_append_right _ (undefined ▸ List.mem_cons_self ..)
      have next : WellFormed (earlier ++ [s.carried] ++ rest) := by
        have same : kinds [s.carried] = kinds [s] := congrArg ([·]) (kind_carried s)
        refine wellFormed.congr ?_
        rw [List.append_assoc, kinds_append, kinds_append, same, kinds_append]
        rfl
      -- the section is read and appended, which the well-formed whole allows
      show (if s.kind = .undefined then _ else _ : Reader Content).Reads _ _
      rw [if_neg used, List.flatMap_cons]
      refine Reads.bind (Section.reads_bytes (sendable s (List.mem_cons_self ..))
        (short s (List.mem_cons_self ..))) ?_
      rw [next.left.append_eq_ok]
      have later := ih next (fun e he => sendable e (List.mem_cons_of_mem _ he)) fun e he =>
        short e (List.mem_cons_of_mem _ he)
      rw [List.append_assoc] at later
      exact later

/-- The sections that were written are read back, without the relays that no packet carries. -/
theorem reads_bytes {scheme : SignatureScheme} {c : Content} (wellFormed : c.WellFormed)
    (sendable : ∀ s ∈ c, s.Sendable scheme) (short : ∀ s ∈ c, s.Short) :
    (reader scheme false c.slots.toList []).Reads (c.flatMap Section.bytes) (carried c) := by
  rw [slots_eq wellFormed.fits]
  exact reads_suffix wellFormed sendable short

/-! ## Content that was read was written so -/

/-- A section that came out of a packet. -/
def Received (scheme : SignatureScheme) (s : Section) : Prop :=
  s.Sendable scheme ∧ s.Short ∧ s.carried = s

/-- Sections were added for some slots, in order, and the slots after them are unused. -/
theorem eq_of_run {scheme : SignatureScheme} {ks : List ContentKind} :
    ∀ {gap : Bool} {c c' : Content} {b rest : Bytes}, c.WellFormed →
      (reader scheme gap ks c).run b = .ok (c', rest) →
      ∃ new : Content, c' = c ++ new ∧ c'.WellFormed ∧ (∀ s ∈ new, Received scheme s) ∧
        (gap = true → new = []) ∧
        (∃ n, ks = new.kinds ++ List.replicate n .undefined) ∧
        ∃ front, b = front ++ rest ∧
          Spells (new.flatMap Section.spare) front (new.flatMap Section.bytes) := by
  induction ks with
  | nil =>
      intro gap c c' b rest wellFormed h
      obtain ⟨rfl, rfl⟩ := run_pure_eq_ok.mp h
      exact ⟨[], (List.append_nil c).symm, wellFormed, fun s hs => (List.not_mem_nil hs).elim,
        fun _ => rfl, ⟨0, rfl⟩, [], rfl, Spells.nil⟩
  | cons k ks ih =>
      intro gap c c' b rest wellFormed h
      by_cases undefined : k = .undefined
      · -- a gap opens, and it admits no further section
        obtain rfl := undefined
        obtain ⟨new, rfl, wellFormed', -, closed, ⟨n, rfl⟩, front, rfl, spells⟩ :=
          @ih true c c' b rest wellFormed h
        obtain rfl := closed rfl
        exact ⟨[], rfl, wellFormed', fun s hs => (List.not_mem_nil hs).elim, fun _ => rfl,
          ⟨n + 1, rfl⟩, front, rfl, spells⟩
      · rw [reader, if_neg undefined] at h
        cases gap with
        | true => exact absurd h run_malformed_ne_ok
        | false =>
            -- a section is read, appended, and the reader goes on with the other slots
            obtain ⟨s, mid, first, next⟩ := run_bind_eq_ok.mp h
            obtain ⟨longer, mid', second, last⟩ := run_bind_eq_ok.mp next
            obtain ⟨appended, rfl⟩ := run_ofExcept_eq_ok.mp second
            obtain ⟨⟨rfl, received⟩, front, rfl, spells⟩ := Section.spelled_reader undefined first
            obtain ⟨appended, rfl⟩ : c.append s = .ok longer ∧ c ++ [s] = longer := by
              cases done : c.append s with
              | error fault => rw [done] at appended; exact nomatch appended
              | ok made =>
                  rw [done] at appended
                  obtain rfl : made = longer := Except.ok.inj appended
                  exact ⟨rfl, (append_eq_ok_iff.mp done).2⟩
            obtain ⟨new, rfl, wellFormed', all, -, ⟨n, rfl⟩, back, rfl, spells'⟩ :=
              ih (wellFormed.of_append appended) last
            refine ⟨s :: new, (List.append_cons ..).symm, wellFormed', ?_, nofun, ⟨n, rfl⟩,
              front ++ back, (List.append_assoc ..).symm, spells.append spells'⟩
            exact List.forall_mem_cons.mpr ⟨received, all⟩

/-- What was read is well formed, its kinds are those of the slots, and it was spelled by what
stood in front. -/
theorem spelled_reader {scheme : SignatureScheme} {slots : Slots} :
    (reader scheme false slots.toList []).Spelled
      (fun c => c.WellFormed ∧ (∀ s ∈ c, Received scheme s) ∧ c.slots = slots)
      (List.flatMap Section.spare) (List.flatMap Section.bytes) := by
  intro b c rest h
  obtain ⟨_, rfl, wellFormed, received, -, ⟨n, kinds⟩, front, rfl, spells⟩ :=
    eq_of_run wellFormed_nil h
  refine ⟨⟨wellFormed, received, ?_⟩, front, rfl, spells⟩
  have count := congrArg List.length kinds
  rw [Vector.length_toList, List.length_append, List.length_replicate] at count
  apply Vector.toList_inj.mp
  have unused : capacity - c.kinds.length = n := by
    rw [capacity, count, Nat.add_sub_cancel_left]
  rw [slots_eq wellFormed.fits, kinds, unused]

end Content

end PeerMessaging
