import PeerMessaging.Message.Kind

/-!
# Eight kinds in one word

The codes of the kinds are the hexadecimal digits of the word, and a number below `16 ^ n` is
known by its `n` digits. So packing and unpacking undo each other, and each slot has a digit of
its own.
-/

namespace PeerMessaging.Slots

/-- The number whose hexadecimal digits are the codes of some kinds, the first kind first. -/
def value (ks : List ContentKind) : Nat := ks.foldl (fun acc k => acc * 16 + k.code) 0

/-- The fold that packs kinds puts their value behind the digits so far. -/
theorem foldl_digits (ks : List ContentKind) :
    ∀ acc, ks.foldl (fun acc k => acc * 16 + k.code) acc = acc * 16 ^ ks.length + value ks := by
  induction ks with
  | nil => intro acc; exact (Nat.mul_one acc).symm
  | cons k ks ih =>
      intro acc
      -- what is there already moves up by one digit for each kind that is left
      rw [value, List.foldl_cons, List.foldl_cons, ih, ih (0 * 16 + k.code), List.length_cons,
        Nat.pow_succ, Nat.add_mul, Nat.zero_mul, Nat.zero_add, Nat.mul_assoc, Nat.add_assoc,
        Nat.mul_comm 16]

theorem value_cons (k : ContentKind) (ks : List ContentKind) :
    value (k :: ks) = k.code * 16 ^ ks.length + value ks := by
  rw [value, List.foldl_cons, foldl_digits, Nat.zero_mul, Nat.zero_add]

theorem value_lt (ks : List ContentKind) : value ks < 16 ^ ks.length := by
  induction ks with
  | nil => exact Nat.one_pos
  | cons k ks ih =>
      have lead : (k.code + 1) * 16 ^ ks.length ≤ 16 * 16 ^ ks.length :=
        Nat.mul_le_mul_right _ k.code_lt
      rw [Nat.add_mul, Nat.one_mul] at lead
      rw [value_cons, List.length_cons, Nat.pow_succ]
      omega

/-- The digits are the codes, from the leading one on. -/
theorem digit_value {ks : List ContentKind} :
    ∀ {i : Nat} (h : i < ks.length),
      value ks / 16 ^ (ks.length - 1 - i) % 16 = (ks[i]).code := by
  induction ks with
  | nil => intro i h; exact absurd h (Nat.not_lt_zero i)
  | cons k ks ih =>
      intro i h
      have positive : 0 < 16 ^ ks.length := Nat.pow_pos (by decide)
      rw [value_cons, List.length_cons, Nat.add_sub_cancel]
      cases i with
      | zero =>
          rw [Nat.sub_zero, Nat.add_comm, Nat.add_mul_div_right _ _ positive,
            Nat.div_eq_of_lt (value_lt ks), Nat.zero_add]
          exact Nat.mod_eq_of_lt k.code_lt
      | succ i =>
          have inside : i < ks.length := Nat.lt_of_succ_lt_succ h
          have place : ks.length = i + 1 + (ks.length - (i + 1)) := by omega
          have positive' : 0 < 16 ^ (ks.length - (i + 1)) := Nat.pow_pos (by decide)
          have lower : ks.length - 1 - i = ks.length - (i + 1) := by omega
          have digit := ih inside
          rw [lower] at digit
          rw [List.getElem_cons_succ, ← digit]
          -- the leading code is a multiple of 16 seen from this place
          have lead : k.code * 16 ^ ks.length
              = k.code * 16 ^ i * 16 * 16 ^ (ks.length - (i + 1)) := by
            rw [Nat.mul_assoc _ _ 16, ← Nat.pow_succ, Nat.mul_assoc, ← Nat.pow_add, ← place]
          rw [lead, Nat.add_comm, Nat.add_mul_div_right _ _ positive', Nat.add_mul_mod_self_right]

/-- Numbers with the same digits are equal. -/
theorem eq_of_digits {n : Nat} :
    ∀ {a b : Nat}, a < 16 ^ n → b < 16 ^ n →
      (∀ i, i < n → a / 16 ^ i % 16 = b / 16 ^ i % 16) → a = b := by
  induction n with
  | zero => intro a b ha hb _; omega
  | succ n ih =>
      intro a b ha hb same
      rw [Nat.pow_succ] at ha hb
      -- the last digits agree, and the numbers without them have the other digits
      have last := same 0 (Nat.succ_pos n)
      have rest : a / 16 = b / 16 := by
        refine ih (Nat.div_lt_of_lt_mul (by omega)) (Nat.div_lt_of_lt_mul (by omega)) ?_
        intro i hi
        have digit := same (i + 1) (Nat.succ_lt_succ hi)
        rwa [Nat.pow_succ', ← Nat.div_div_eq_div_mul, ← Nat.div_div_eq_div_mul] at digit
      rw [Nat.pow_zero, Nat.div_one, Nat.div_one] at last
      omega

/-- The packed word is the value of the slots. -/
theorem toNat_pack (slots : Slots) : (pack slots).toNat = value slots.toList := by
  have small := value_lt slots.toList
  rw [Vector.length_toList] at small
  show (UInt32.ofNat (value slots.toList)).toNat = _
  rw [UInt32.toNat_ofNat']
  exact Nat.mod_eq_of_lt small

/-- Each slot has a digit of its own. -/
theorem digit_pack (slots : Slots) {i : Nat} (h : i < 8) :
    (pack slots).toNat / 16 ^ (7 - i) % 16 = (slots[i]).code := by
  have inside : i < slots.toList.length := by rw [Vector.length_toList]; exact h
  have digit := digit_value inside
  rwa [Vector.length_toList, Vector.getElem_toList, ← toNat_pack] at digit

/-- Each unpacked slot has its digit of the word for code. -/
theorem code_unpack (word : UInt32) {i : Nat} (h : i < 8) :
    ((unpack word)[i]).code = word.toNat / 16 ^ (7 - i) % 16 := by
  have digit : word.toNat / 16 ^ (7 - i) % 16 < ContentKind.all.length :=
    Nat.mod_lt _ (by decide)
  have found : ContentKind.ofCode? (word.toNat / 16 ^ (7 - i) % 16) = some _ :=
    List.getElem?_eq_getElem digit
  rw [unpack, Vector.getElem_ofFn, found, Option.getD_some]
  exact ContentKind.code_of_ofCode? found

/-- The slots come back from their word. -/
theorem unpack_pack (slots : Slots) : unpack (pack slots) = slots := by
  refine Vector.ext fun i h => ?_
  rw [unpack, Vector.getElem_ofFn, digit_pack slots h, ContentKind.ofCode?_code, Option.getD_some]

/-- The word comes back from its slots. -/
theorem pack_unpack (word : UInt32) : pack (unpack word) = word := by
  apply UInt32.toNat_inj.mp
  -- slots count from the leading digit and places from the last one
  refine @eq_of_digits 8 _ _ (pack _).toNat_lt word.toNat_lt fun i h => ?_
  have mirrored : 7 - (7 - i) = i := by omega
  have digit := (digit_pack (unpack word) (show 7 - i < 8 by omega)).trans
    (code_unpack word (show 7 - i < 8 by omega))
  rwa [mirrored] at digit

end PeerMessaging.Slots
