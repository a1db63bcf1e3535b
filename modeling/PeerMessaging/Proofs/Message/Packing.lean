import PeerMessaging.Failure
import PeerMessaging.Proofs.Message.Slots
import Mathlib.Logic.Function.Basic

/-!
# The places of the eight kinds

As a digit the code of a slot follows the codes before it; as bits it has a place of its own, four
bits wide. So the word may as well be put together by moving every code to its place and laying
the codes over one another, and taken apart by moving every place down and cutting off what is
above it. To take apart is to look numbers up, and a number that no kind has would end it; there
is no such number, since the codes are all the numbers of four bits. Words are compared place by
place: the eight places are apart, and together they are the whole word.
-/

namespace PeerMessaging.Slots

variable {i j : Fin 8} {b t : Nat}

/-- The lowest bit of the place of a slot. -/
def lowest (i : Fin 8) : Nat := 28 - 4 * i.val

/-- The code of a slot in its place. -/
def layer (slots : Slots) (i : Fin 8) : UInt32 :=
  UInt32.ofNat slots[i].code <<< UInt32.ofNat (lowest i)

/-- The codes in their places, laid over one another from the first slot on. -/
def overlay (slots : Slots) : UInt32 :=
  (List.finRange 8).foldl (fun word i => word ||| slots.layer i) 0

/-- The number in the place of a slot. -/
def cut (word : UInt32) (i : Fin 8) : Nat :=
  (word >>> UInt32.ofNat (lowest i) &&& 0x0F).toNat

/-- The kinds of the numbers in the eight places, the first slot first. A number that stands for
no kind ends it. -/
def readPlaces (word : UInt32) : Except DecodeFault Slots :=
  Vector.ofFnM fun i =>
    match ContentKind.ofCode? (cut word i) with
    | some kind => .ok kind
    | none => .error (.unknownContentKind (cut word i))

/-! ## Places -/

theorem lowest_le (i : Fin 8) : lowest i ≤ 28 := Nat.sub_le ..

/-- The lowest bit of a place has the weight of its digit to the base 16. -/
theorem two_pow_lowest (i : Fin 8) : 2 ^ lowest i = 16 ^ (7 - i.val) := by
  have places : 4 * (7 - i.val) = lowest i := by
    rw [lowest]
    omega
  rw [← places, Nat.pow_mul]

/-- Moving by so many bits moves by no more and no less. -/
theorem toNat_lowest (i : Fin 8) : (UInt32.ofNat (lowest i)).toNat % 32 = lowest i := by
  have small := lowest_le i
  rw [UInt32.toNat_ofNat']
  omega

/-- Every bit of a word is in the place of a slot. -/
theorem exists_place (h : b < 32) : ∃ i t, t < 4 ∧ b = lowest i + t := by
  have place : b = 28 - 4 * (7 - b / 4) + b % 4 := by omega
  exact ⟨⟨7 - b / 4, by omega⟩, b % 4, Nat.mod_lt _ (by decide), place⟩

/-- No two places share a bit. -/
theorem eq_of_place (hi : lowest i ≤ b ∧ b < lowest i + 4)
    (hj : lowest j ≤ b ∧ b < lowest j + 4) : i = j := by
  rw [lowest] at hi hj
  apply Fin.ext
  omega

theorem testBit_of_beyond (word : UInt32) (h : 32 ≤ b) : word.toNat.testBit b = false :=
  Nat.testBit_lt_two_pow
    (Nat.lt_of_lt_of_le word.toNat_lt (Nat.pow_le_pow_right (Nat.succ_pos 1) h))

/-- Words with the same bits in every place are equal. -/
theorem eq_of_places {v w : UInt32}
    (same : ∀ i t, t < 4 → v.toNat.testBit (lowest i + t) = w.toNat.testBit (lowest i + t)) :
    v = w := by
  apply UInt32.toNat_inj.mp
  apply Nat.eq_of_testBit_eq
  intro b
  rcases Nat.lt_or_ge b 32 with inside | beyond
  · obtain ⟨i, t, ht, rfl⟩ := exists_place inside
    exact same i t ht
  · rw [testBit_of_beyond v beyond, testBit_of_beyond w beyond]

/-! ## The bits of a word that was packed -/

theorem testBit_code (kind : ContentKind) (h : 4 ≤ t) : kind.code.testBit t = false :=
  Nat.testBit_lt_two_pow
    (Nat.lt_of_lt_of_le kind.code_lt (Nat.pow_le_pow_right (Nat.succ_pos 1) h))

/-- The code of a slot fills its place. -/
theorem testBit_pack (slots : Slots) (i : Fin 8) (ht : t < 4) :
    (pack slots).toNat.testBit (lowest i + t) = slots[i].code.testBit t := by
  have digit : (pack slots).toNat / 2 ^ lowest i % 2 ^ 4 = slots[i].code := by
    rw [two_pow_lowest]
    exact digit_pack slots i.isLt
  rw [← digit, Nat.testBit_mod_two_pow, decide_eq_true ht, Bool.true_and,
    Nat.testBit_div_two_pow, Nat.add_comm]

/-- A slot that changes leaves every bit outside its place alone. -/
theorem testBit_pack_set (slots : Slots) (i : Fin 8) (kind : ContentKind) (b : Nat) :
    (pack (slots.set i kind)).toNat.testBit b
      = if lowest i ≤ b ∧ b < lowest i + 4 then kind.code.testBit (b - lowest i)
        else (pack slots).toNat.testBit b := by
  rcases Nat.lt_or_ge b 32 with inside | beyond
  · obtain ⟨j, t, ht, rfl⟩ := exists_place inside
    have entry : (slots.set i kind)[j] = if i.val = j.val then kind else slots[j] :=
      Vector.getElem_set i.isLt j.isLt
    rw [testBit_pack _ j ht, entry]
    by_cases same : i = j
    · subst same
      rw [if_pos rfl, if_pos (by omega), Nat.add_sub_cancel_left]
    · rw [if_neg (fun h => same (Fin.ext h)), if_neg (fun h => same (eq_of_place h (by omega))),
        testBit_pack _ j ht]
  · have small := lowest_le i
    rw [testBit_of_beyond _ beyond, testBit_of_beyond _ beyond, if_neg (by omega)]

/-! ## Codes laid over one another -/

/-- A layer is the code of its slot, shifted to its place. -/
theorem toNat_layer (slots : Slots) (i : Fin 8) :
    (slots.layer i).toNat = slots[i].code <<< lowest i := by
  have code := slots[i].code_lt
  have fits : slots[i].code <<< lowest i < 2 ^ 32 := by
    rw [Nat.shiftLeft_eq]
    calc slots[i].code * 2 ^ lowest i
        < 2 ^ 4 * 2 ^ lowest i := Nat.mul_lt_mul_of_pos_right code (Nat.two_pow_pos _)
      _ ≤ 2 ^ 4 * 2 ^ 28 :=
          Nat.mul_le_mul_left _ (Nat.pow_le_pow_right (Nat.succ_pos 1) (lowest_le i))
      _ = 2 ^ 32 := rfl
  rw [layer, UInt32.toNat_shiftLeft, toNat_lowest, UInt32.toNat_ofNat',
    Nat.mod_eq_of_lt (Nat.lt_trans code (by decide)), Nat.mod_eq_of_lt fits]

/-- A layer is empty outside the place of its slot. -/
theorem place_of_testBit_layer {slots : Slots}
    (set : (slots.layer i).toNat.testBit b = true) : lowest i ≤ b ∧ b < lowest i + 4 := by
  rw [toNat_layer, Nat.testBit_shiftLeft, Bool.and_eq_true, decide_eq_true_iff] at set
  obtain ⟨start, set⟩ := set
  refine ⟨start, Nat.lt_of_not_ge fun beyond => ?_⟩
  rw [testBit_code _ (Nat.le_sub_of_add_le' beyond)] at set
  cases set

theorem testBit_layer (slots : Slots) (i : Fin 8) (t : Nat) :
    (slots.layer i).toNat.testBit (lowest i + t) = slots[i].code.testBit t := by
  rw [toNat_layer, Nat.testBit_shiftLeft, decide_eq_true (Nat.le_add_right ..), Bool.true_and,
    Nat.add_sub_cancel_left]

/-- A bit of words laid over one another is set if it is set in one of them. -/
theorem testBit_foldl_or {α : Type} (f : α → UInt32) (b : Nat) (l : List α) :
    ∀ word : UInt32, (l.foldl (fun word x => word ||| f x) word).toNat.testBit b
      = (word.toNat.testBit b || l.any fun x => (f x).toNat.testBit b) := by
  induction l with
  | nil => intro word; exact (Bool.or_false _).symm
  | cons x l ih =>
      intro word
      rw [List.foldl_cons, ih, UInt32.toNat_or, Nat.testBit_or, List.any_cons, Bool.or_assoc]

/-- In the place of a slot only its own layer counts. -/
theorem testBit_overlay (slots : Slots) (i : Fin 8) (ht : t < 4) :
    (overlay slots).toNat.testBit (lowest i + t) = slots[i].code.testBit t := by
  rw [overlay, testBit_foldl_or, UInt32.toNat_zero, Nat.zero_testBit, Bool.false_or,
    ← testBit_layer, Bool.eq_iff_iff, List.any_eq_true]
  constructor
  · rintro ⟨j, -, set⟩
    have same : j = i := eq_of_place (place_of_testBit_layer set) (by omega)
    exact same ▸ set
  · intro set
    exact ⟨i, List.mem_finRange i, set⟩

theorem overlay_eq_pack (slots : Slots) : overlay slots = pack slots :=
  eq_of_places fun i _ ht => (testBit_overlay slots i ht).trans (testBit_pack slots i ht).symm

/-! ## Numbers looked up -/

/-- The field of a place is a digit of the word to the base 16. -/
theorem cut_eq (word : UInt32) (i : Fin 8) :
    cut word i = word.toNat / 16 ^ (7 - i.val) % 16 := by
  rw [cut, UInt32.toNat_and, UInt32.toNat_shiftRight, toNat_lowest, Nat.shiftRight_eq_div_pow,
    two_pow_lowest]
  exact Nat.and_two_pow_sub_one_eq_mod _ 4

/-- The number in a place is the code of a kind, whatever the word. -/
theorem ofCode?_cut (word : UInt32) (i : Fin 8) :
    ContentKind.ofCode? (cut word i) = some (unpack word)[i] := by
  have code : (unpack word)[i].code = cut word i :=
    (code_unpack word i.isLt).trans (cut_eq word i).symm
  rw [← code, ContentKind.ofCode?_code]

/-- No word ends the reading of its places. -/
theorem readPlaces_eq (word : UInt32) : readPlaces word = .ok (unpack word) := by
  have each : (fun i => match ContentKind.ofCode? (cut word i) with
      | some kind => Except.ok kind
      | none => Except.error (DecodeFault.unknownContentKind (cut word i)))
      = fun i => pure (unpack word)[i] := by
    funext i
    rw [ofCode?_cut]
    rfl
  rw [readPlaces, each, Vector.ofFnM_pure]
  exact congrArg Except.ok (Vector.ext fun i h => Vector.getElem_ofFn h)

/-- **Packing is a bijection, and each slot has four bits of the word to itself.** Whatever the
word, its places are read without a fault and packed into that word again; whatever the kinds,
they are what is read of their word, which is the overlay of their codes. Slot `i` is what the
bits from `28 - 4 * i` to `31 - 4 * i` say, and to change it changes no bit outside them. -/
theorem pack_bijective :
    Function.Bijective pack ∧
    (∀ word, readPlaces word = .ok (unpack word) ∧ pack (unpack word) = word) ∧
    (∀ slots, overlay slots = pack slots ∧ readPlaces (pack slots) = .ok slots) ∧
    (∀ (slots : Slots) (i : Fin 8) (t : Fin 4),
      (pack slots).toNat.testBit (28 - 4 * i.val + t.val) = slots[i].code.testBit t.val) ∧
    ∀ (slots : Slots) (i : Fin 8) (kind : ContentKind) (b : Nat),
      (pack (slots.set i kind)).toNat.testBit b
        = if 28 - 4 * i.val ≤ b ∧ b ≤ 31 - 4 * i.val then kind.code.testBit (b - (28 - 4 * i.val))
          else (pack slots).toNat.testBit b := by
  refine ⟨Function.bijective_iff_has_inverse.mpr ⟨unpack, unpack_pack, pack_unpack⟩, ?_, ?_, ?_,
    ?_⟩
  · intro word
    exact ⟨readPlaces_eq word, pack_unpack word⟩
  · intro slots
    refine ⟨overlay_eq_pack slots, ?_⟩
    rw [readPlaces_eq, unpack_pack]
  · intro slots i t
    exact testBit_pack slots i t.isLt
  · intro slots i kind b
    have place : (28 - 4 * i.val ≤ b ∧ b ≤ 31 - 4 * i.val)
        ↔ (lowest i ≤ b ∧ b < lowest i + 4) := by
      rw [lowest]
      omega
    rw [if_congr place rfl rfl]
    exact testBit_pack_set slots i kind b

end PeerMessaging.Slots
