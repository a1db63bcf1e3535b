import PeerMessaging.Gather

/-!
# The layout of a gathered string

Pieces are added at the end and merged when they become too many. What stays the same through
all of this is the layout: no piece is empty, the first begins at zero, and each begins where
the one before it ends. A string that is laid out so is one flat byte string. Its size is the
length of the flat string, the search by halves finds the piece that covers a position, and a
range of positions holds the same bytes in both.
-/

namespace PeerMessaging.Gather

/-- Pieces that are not empty and lie back to back from a position on. -/
def BackToBack : Nat → List Piece → Prop
  | _, [] => True
  | start, p :: rest =>
      p.bytes ≠ [] ∧ p.start = start ∧ p.stop = start + p.bytes.length ∧ BackToBack p.stop rest

/-- The pieces of a gathered string lie back to back from zero on. -/
def Laid (g : Gather) : Prop := BackToBack 0 g.pieces

/-- The bytes of pieces as one string. -/
def flat (pieces : List Piece) : Bytes := (pieces.map Piece.bytes).flatten

@[simp] theorem flat_nil : flat [] = [] := rfl

@[simp] theorem flat_cons (p : Piece) (rest : List Piece) :
    flat (p :: rest) = p.bytes ++ flat rest := rfl

@[simp] theorem flat_append (front rest : List Piece) :
    flat (front ++ rest) = flat front ++ flat rest := by
  simp [flat]

/-- The parts of a string, one after the other, are its flat bytes. -/
theorem flatten_parts (g : Gather) : g.parts.flatten = flat g.pieces := rfl

/-- Pieces that lie back to back do so in two stretches, the second one behind the first. -/
theorem backToBack_append (front rest : List Piece) :
    ∀ start, BackToBack start (front ++ rest) ↔
      BackToBack start front ∧ BackToBack (start + (flat front).length) rest := by
  induction front with
  | nil => intro start; simp [BackToBack]
  | cons p front ih =>
      intro start
      rw [List.cons_append]
      simp only [BackToBack, ih, flat_cons, List.length_append, ← Nat.add_assoc]
      constructor
      · rintro ⟨filled, begins, ends, front, rest⟩
        rw [ends] at rest
        exact ⟨⟨filled, begins, ends, front⟩, rest⟩
      · rintro ⟨⟨filled, begins, ends, front⟩, rest⟩
        rw [← ends] at rest
        exact ⟨filled, begins, ends, front, rest⟩

/-- The last piece ends where the whole ends. -/
theorem stop_getLast {pieces : List Piece} {p : Piece} :
    ∀ {start}, BackToBack start pieces → pieces.getLast? = some p →
      p.stop = start + (flat pieces).length := by
  intro start laid last
  obtain ⟨front, rfl⟩ := List.getLast?_eq_some_iff.mp last
  obtain ⟨-, -, -, ends, -⟩ := (backToBack_append front [p] start).mp laid
  rw [ends, flat_append, List.length_append, ← Nat.add_assoc]
  simp

/-- The size of a string that is laid out well is the number of its bytes. -/
theorem size_eq {g : Gather} (laid : Laid g) : g.size = g.parts.flatten.length := by
  rw [flatten_parts]
  rw [size]
  cases last : g.pieces.getLast? with
  | none => simp [List.getLast?_eq_none_iff.mp last]
  | some p =>
      show p.stop = (flat g.pieces).length
      rw [stop_getLast laid last, Nat.zero_add]

/-! ## Adding pieces -/

theorem laid_empty : Laid empty := trivial

/-- Adding puts the bytes at the end, merged or not. -/
theorem flatten_parts_add (g : Gather) (b : Bytes) :
    (g.add b).parts.flatten = g.parts.flatten ++ b := by
  rw [add]
  by_cases none : b.isEmpty = true
  · rw [if_pos none, List.isEmpty_iff.mp none, List.append_nil]
  · rw [if_neg none]
    dsimp only
    split <;> simp [parts, merged]

/-- Adding bytes keeps the layout. -/
theorem laid_add {g : Gather} (laid : Laid g) (b : Bytes) : Laid (g.add b) := by
  rw [add]
  by_cases none : b.isEmpty = true
  · rw [if_pos none]
    exact laid
  · rw [if_neg none]
    have filled : b ≠ [] := fun h => none (List.isEmpty_iff.mpr h)
    have longer : BackToBack 0 (g.pieces ++ [⟨b, g.size, g.size + b.length⟩]) := by
      rw [backToBack_append, Nat.zero_add, ← flatten_parts, ← size_eq laid]
      exact ⟨laid, filled, rfl, rfl, trivial⟩
    dsimp only
    split
    · refine ⟨?_, rfl, ?_, trivial⟩
      · simp [parts, filled]
      · show size _ = 0 + _
        rw [Nat.zero_add]
        exact size_eq longer
    · exact longer

/-! ## Finding a piece -/

/-- Where a piece lies follows from the pieces before it. -/
theorem place_of_getElem? {p : Piece} :
    ∀ {pieces : List Piece} {start i : Nat}, BackToBack start pieces → pieces[i]? = some p →
      p.bytes ≠ [] ∧ p.start = start + (flat (pieces.take i)).length ∧
        p.stop = start + (flat (pieces.take (i + 1))).length := by
  intro pieces
  induction pieces with
  | nil => intro start i _ h; exact nomatch h
  | cons q rest ih =>
      rintro start i ⟨filled, begins, ends, laid⟩ h
      cases i with
      | zero =>
          obtain rfl : q = p := Option.some.inj h
          exact ⟨filled, by simp [begins], by simp [ends]⟩
      | succ i =>
          obtain ⟨filled', begins', ends'⟩ := ih laid h
          refine ⟨filled', ?_, ?_⟩
          · rw [begins', ends, List.take_succ_cons, flat_cons, List.length_append, Nat.add_assoc]
          · rw [ends', ends, List.take_succ_cons, flat_cons, List.length_append, Nat.add_assoc]

/-- More pieces hold at least as many bytes. -/
theorem length_flat_take_le (pieces : List Piece) {i j : Nat} (le : i ≤ j) :
    (flat (pieces.take i)).length ≤ (flat (pieces.take j)).length := by
  obtain ⟨k, rfl⟩ := Nat.exists_eq_add_of_le le
  rw [List.take_add, flat_append, List.length_append]
  exact Nat.le_add_right _ _

/-- An earlier piece ends before a later one begins. -/
theorem stop_le_start {pieces : List Piece} {start i j : Nat} {p q : Piece}
    (laid : BackToBack start pieces) (earlier : i < j) (hp : pieces[i]? = some p)
    (hq : pieces[j]? = some q) : p.stop ≤ q.start := by
  obtain ⟨-, -, ends⟩ := place_of_getElem? laid hp
  obtain ⟨-, begins, -⟩ := place_of_getElem? laid hq
  have := length_flat_take_le pieces (show i + 1 ≤ j from earlier)
  omega

/-- A piece begins before it ends. -/
theorem start_lt_stop {pieces : List Piece} {start i : Nat} {p : Piece}
    (laid : BackToBack start pieces) (hp : pieces[i]? = some p) : p.start < p.stop := by
  obtain ⟨filled, begins, ends⟩ := place_of_getElem? laid hp
  have := List.length_pos_iff.mpr filled
  rw [List.take_add_one, hp, flat_append, List.length_append] at ends
  simp only [Option.toList_some, flat_cons, flat_nil, List.append_nil] at ends
  omega

/-- Some piece covers each position inside. -/
theorem exists_covers {offset : Nat} :
    ∀ {pieces : List Piece} {start : Nat}, BackToBack start pieces → start ≤ offset →
      offset < start + (flat pieces).length →
      ∃ (i : Nat) (p : Piece), pieces[i]? = some p ∧ p.start ≤ offset ∧ offset < p.stop := by
  intro pieces
  induction pieces with
  | nil => intro start _ low high; simp at high; omega
  | cons q rest ih =>
      rintro start ⟨filled, begins, ends, laid⟩ low high
      by_cases inside : offset < q.stop
      · exact ⟨0, q, rfl, by omega, inside⟩
      · rw [flat_cons, List.length_append] at high
        obtain ⟨i, p, hp, covers⟩ := ih laid (by omega) (by omega)
        exact ⟨i + 1, p, hp, covers⟩

/-- The search by halves finds the piece that covers the position, as long as its number is
among the candidates. -/
theorem search_eq {pieces : List Piece} {offset i : Nat} {p : Piece}
    (laid : BackToBack 0 pieces) (hp : pieces[i]? = some p) (begins : p.start ≤ offset)
    (ends : offset < p.stop) (low high : Nat) (above : low ≤ i) (below : i < high)
    (bounded : high ≤ pieces.length) : search pieces offset low high = some i := by
  -- the number stays between the bounds, since pieces before it end and pieces after it begin
  -- on the other side of the position
  fun_induction search pieces offset low high with
  | case1 low high less mid none =>
      have : mid < pieces.length := by omega
      rw [List.getElem?_eq_none_iff] at none
      omega
  | case2 low high less mid q hq left ih =>
      refine ih ?_ below bounded
      rcases Nat.lt_trichotomy mid i with before | rfl | after
      · exact before
      · obtain rfl : q = p := Option.some.inj (hq.symm.trans hp)
        omega
      · have := stop_le_start laid after hp hq
        have := start_lt_stop laid hq
        omega
  | case3 low high less mid q hq right left ih =>
      refine ih above ?_ (by omega)
      rcases Nat.lt_trichotomy mid i with before | rfl | after
      · have := stop_le_start laid before hq hp
        omega
      · obtain rfl : q = p := Option.some.inj (hq.symm.trans hp)
        omega
      · exact after
  | case4 low high less mid q hq right left =>
      rcases Nat.lt_trichotomy mid i with before | same | after
      · have := stop_le_start laid before hq hp
        omega
      · exact congrArg some same
      · have := stop_le_start laid after hp hq
        omega
  | case5 low high done => omega

/-- The number found for a position is that of the piece which covers it. -/
theorem pieceIndex_eq {g : Gather} {offset i : Nat} {p : Piece} (laid : Laid g)
    (hp : g.pieces[i]? = some p) (begins : p.start ≤ offset) (ends : offset < p.stop) :
    g.pieceIndex offset = .ok i := by
  have bound : i < g.pieces.length := (List.getElem?_eq_some_iff.mp hp).1
  have inside : offset < g.size := by
    obtain ⟨-, -, at_⟩ := place_of_getElem? laid hp
    have := length_flat_take_le g.pieces (show i + 1 ≤ g.pieces.length from bound)
    rw [List.take_length] at this
    rw [size_eq laid, flatten_parts]
    omega
  rw [pieceIndex]
  rw [if_neg (by omega), search_eq laid hp begins ends 0 _ (Nat.zero_le i) bound (Nat.le_refl _)]

/-! ## Reading a range -/

theorem slices_zero (pieces : List Piece) (index : Nat) : slices pieces index 0 = [] := by
  cases pieces <;> simp [slices]

/-- The parts of a range make up the bytes of the range in the flat string. -/
theorem flatten_slices :
    ∀ (pieces : List Piece) (start index length : Nat), BackToBack start pieces →
      start ≤ index → (∀ p ∈ pieces.head?, index ≤ p.stop) →
      (slices pieces index length).flatten = ((flat pieces).drop (index - start)).take length := by
  intro pieces
  induction pieces with
  | nil => intro start index length _ _ _; simp [slices]
  | cons p rest ih =>
      rintro start index length ⟨-, begins, ends, laid⟩ low first
      have inside : index ≤ p.stop := first p rfl
      by_cases done : length = 0
      · rw [done, slices_zero, List.take_zero, List.flatten_nil]
      rw [slices, if_neg done, begins, flat_cons]
      dsimp only
      rw [List.flatten_cons, List.drop_append_of_le_length (by omega), List.take_append,
        List.length_drop]
      -- the range ends in this piece, or it goes on at the beginning of the next one
      by_cases short : length ≤ p.bytes.length - (index - start)
      · rw [Nat.min_eq_left short, Nat.sub_self, slices_zero, Nat.sub_eq_zero_of_le short]
        simp
      · have skipped : min length (p.bytes.length - (index - start))
            = p.bytes.length - (index - start) := Nat.min_eq_right (by omega)
        have next : index + (p.bytes.length - (index - start)) = p.stop := by omega
        rw [skipped, next, List.take_of_length_le (Nat.le_of_eq List.length_drop),
          List.take_of_length_le (by rw [List.length_drop]; omega),
          ih p.stop p.stop _ laid (Nat.le_refl _), Nat.sub_self, List.drop_zero]
        intro q hq
        cases rest with
        | nil => exact nomatch hq
        | cons r rest =>
            obtain rfl : r = q := Option.some.inj hq
            have := laid.2.2.1
            omega

/-- No part of a range is empty. -/
theorem ne_nil_of_mem_slices {b : Bytes} :
    ∀ {pieces : List Piece} {start index length : Nat}, BackToBack start pieces → start ≤ index →
      (∀ p ∈ pieces.head?, index < p.stop) → b ∈ slices pieces index length → b ≠ [] := by
  intro pieces
  induction pieces with
  | nil => intro start index length _ _ _ hb; exact nomatch hb
  | cons p rest ih =>
      rintro start index length ⟨-, begins, ends, laid⟩ low first hb
      have inside : index < p.stop := first p rfl
      by_cases done : length = 0
      · rw [done, slices_zero] at hb
        exact nomatch hb
      rw [slices, if_neg done] at hb
      dsimp only at hb
      rcases List.mem_cons.mp hb with rfl | later
      · apply List.ne_nil_of_length_pos
        rw [List.length_take, List.length_drop]
        omega
      by_cases short : length ≤ p.bytes.length - (index - p.start)
      · rw [Nat.min_eq_left short, Nat.sub_self, slices_zero] at later
        exact nomatch later
      · -- the range goes on, so the next piece is where it is cut
        rw [Nat.min_eq_right (by omega)] at later
        refine ih laid (by omega) ?_ later
        intro q hq
        cases rest with
        | nil => exact nomatch hq
        | cons r rest =>
            obtain rfl : r = q := Option.some.inj hq
            obtain ⟨filled, begins', ends', -⟩ := laid
            have := List.length_pos_iff.mpr filled
            omega

/-- A range that lies inside and is not empty is cut from the piece in which it begins and from
those behind it. -/
theorem exists_range_eq {g : Gather} {index length : Nat} (laid : Laid g)
    (small : index + length < addressSpace) (inside : index + length ≤ g.size)
    (some_ : length ≠ 0) :
    ∃ (i : Nat) (p : Piece), g.pieces[i]? = some p ∧ p.start ≤ index ∧
      (∀ q ∈ (g.pieces.drop i).head?, index < q.stop) ∧ BackToBack p.start (g.pieces.drop i) ∧
      g.range index length = .ok (slices (g.pieces.drop i) index length) := by
  have covered : index < 0 + (flat g.pieces).length := by
    rw [Nat.zero_add, ← flatten_parts, ← size_eq laid]
    omega
  obtain ⟨i, p, hp, begins, ends⟩ := exists_covers laid (Nat.zero_le _) covered
  refine ⟨i, p, hp, begins, ?_, ?_, ?_⟩
  · intro q hq
    rw [List.head?_drop, hp] at hq
    obtain rfl : p = q := Option.some.inj hq
    exact ends
  · obtain ⟨-, at_, -⟩ := place_of_getElem? laid hp
    rw [Laid, ← List.take_append_drop i g.pieces] at laid
    rw [at_]
    exact ((backToBack_append _ _ 0).mp laid).2
  · rw [range, checkRange, if_pos ⟨small, inside⟩]
    dsimp only
    rw [if_neg some_, pieceIndex_eq laid hp begins ends]

/-- A range that lies inside holds the same bytes as in the flat string. -/
theorem slice_eq {g : Gather} {index length : Nat} (laid : Laid g)
    (small : index + length < addressSpace) (inside : index + length ≤ g.size) :
    g.slice index length = .ok ((g.parts.flatten.drop index).take length) := by
  rw [slice]
  by_cases none : length = 0
  · rw [range, checkRange, if_pos ⟨small, inside⟩]
    simp [none, Except.map]
  obtain ⟨i, p, hp, begins, head, rest, cut⟩ := exists_range_eq laid small inside none
  -- from here on the range lies in the pieces behind the one that was found
  rw [cut, Except.map, flatten_slices _ _ _ _ rest begins fun q hq => Nat.le_of_lt (head q hq),
    flatten_parts]
  congr 2
  obtain ⟨-, at_, -⟩ := place_of_getElem? laid hp
  have whole : flat g.pieces = flat (g.pieces.take i) ++ flat (g.pieces.drop i) := by
    rw [← flat_append, List.take_append_drop]
  have before : (flat (g.pieces.take i)).drop index = [] := List.drop_eq_nil_of_le (by omega)
  rw [whole, List.drop_append, before, List.nil_append, at_, Nat.zero_add]

/-- The whole string is the flat one, as long as its positions are 64-bit numbers. -/
theorem toBytes_eq {g : Gather} (laid : Laid g) (small : g.parts.flatten.length < addressSpace) :
    g.toBytes = g.parts.flatten := by
  rw [toBytes]
  rw [← size_eq laid] at small
  rw [slice_eq laid (by omega) (by omega), List.drop_zero, size_eq laid, List.take_length]

end PeerMessaging.Gather
