import PeerMessaging.Proofs.Toml.Strings
import PeerMessaging.Toml.Printer
import PeerMessaging.Toml.Reader

/-!
# Values are read back

The readers of the kinds of values are tried one after another, and each must refuse what belongs
to a later one. A text that begins with a digit could be a number of any kind or a moment. It is an
integer because of what follows the digits: the end of a line, a comma or a closing bracket, and
neither a fraction nor an exponent nor a moment goes on with one of these. An array is written in
three layouts, by the number of its items, and the blanks and line breaks between them are left out
again.
-/

namespace PeerMessaging.Toml

open Text

/-- What may follow a value: the end of a line, a comma, the end of an array, or nothing. -/
def Ends (rest : List Char) : Prop := ∀ c t, rest = c :: t → c = '\n' ∨ c = ',' ∨ c = ']'

theorem ends_cons {c : Char} (h : c = '\n' ∨ c = ',' ∨ c = ']') (t : List Char) :
    Ends (c :: t) := by
  intro d u same
  rwa [← (List.cons.inj same).1]

/-- Where a value ends, no character comes next but those that may end it. -/
theorem Ends.notAhead {rest : List Char} (ends : Ends rest) {x : Char}
    (other : x ≠ '\n' ∧ x ≠ ',' ∧ x ≠ ']') : NotAhead x rest := by
  intro u same
  rcases ends x u same with h | h | h
  · exact other.1 h
  · exact other.2.1 h
  · exact other.2.2 h

/-! ## Digits -/

/-- Only digits. -/
def Digits (ds : List Char) : Prop := ∀ c ∈ ds, isDigit 10 c = true

theorem ne_of_class {p : Char → Bool} {c x : Char} (own : p c = true) (foreign : p x = false) :
    c ≠ x := by
  rintro rfl
  exact Bool.false_ne_true (foreign.symm.trans own)

/-- Where digits come next, no character comes that is neither a digit nor an end. -/
theorem Digits.notAhead {ds rest : List Char} (digits : Digits ds) (ends : Ends rest) {x : Char}
    (foreign : isDigit 10 x = false) (other : x ≠ '\n' ∧ x ≠ ',' ∧ x ≠ ']') :
    NotAhead x (ds ++ rest) := by
  cases ds with
  | nil => exact ends.notAhead other
  | cons c ds => exact notAhead_cons (ne_of_class (digits c (List.mem_cons_self ..)) foreign) _

/-- The digits that a number is written with. -/
structure Numeral (n : Nat) (ds : List Char) : Prop where
  digits : Digits ds
  filled : ds ≠ []
  value : digitsValue 10 ds = n
  lead : ∀ t, ds = '0' :: t → t = []

theorem digit_digitChar : ∀ d : Fin 10,
    isDigit 10 d.val.digitChar = true ∧ (digitValue? 10 d.val.digitChar).getD 0 = d.val ∧
      (d.val.digitChar = '0' → d.val = 0) := by
  decide

/-- A digit that is appended is the last one of the number. -/
theorem digitsValue_concat (ds : List Char) (c : Char) :
    digitsValue 10 (ds ++ [c]) = digitsValue 10 ds * 10 + (digitValue? 10 c).getD 0 := by
  rw [digitsValue, List.foldl_append]
  rfl

/-- The digits of a number are a numeral of it. -/
theorem numeral_toDigits (n : Nat) : Numeral n (Nat.toDigits 10 n) := by
  induction n using Nat.strongRecOn with
  | ind n ih =>
      rw [Nat.toDigits_eq_if (by decide)]
      by_cases small : n < 10
      · obtain ⟨digit, value, zero⟩ := digit_digitChar ⟨n, small⟩
        rw [if_pos small]
        refine ⟨?_, nofun, ?_, fun t same => (List.cons.inj same).2.symm⟩
        · intro c member
          rw [List.mem_singleton.mp member]
          exact digit
        · rw [← List.nil_append [_], digitsValue_concat]
          exact (Nat.zero_add _).trans value
      · obtain ⟨digits, filled, value, lead⟩ := ih (n / 10) (by omega)
        obtain ⟨digit, last, -⟩ := digit_digitChar ⟨n % 10, Nat.mod_lt _ (by decide)⟩
        rw [if_neg small]
        refine ⟨?_, List.append_ne_nil_of_left_ne_nil filled _, ?_, ?_⟩
        · intro c member
          rcases List.mem_append.mp member with member | member
          · exact digits c member
          · rw [List.mem_singleton.mp member]
            exact digit
        · rw [digitsValue_concat, value, last]
          exact Nat.div_add_mod' n 10
        · -- a zero in front would be the whole of a number that is not zero
          intro t same
          obtain ⟨c, front, split⟩ := List.exists_cons_of_ne_nil filled
          rw [split, List.cons_append] at same
          obtain ⟨rfl, -⟩ := List.cons.inj same
          rw [split, lead front split] at value
          have zero : n / 10 = 0 := value.symm
          omega

/-- A natural number is printed with its decimal digits. -/
theorem toList_toString (n : Nat) : (toString (n : Int)).toList = Nat.toDigits 10 n := by
  show (toString n).toList = _
  rw [Nat.toString_eq_ofList_toDigits, String.toList_ofList]

/-! ## Numbers -/

section

variable {ds rest : List Char} {n : Nat}

/-- Digits are read up to the end of the value. -/
theorem moreDigits_eq (digits : Digits ds) (ends : Ends rest) :
    moreDigits 10 (ds ++ rest) = (ds, rest) := by
  induction ds with
  | nil =>
      cases rest with
      | nil => rfl
      | cons c t =>
          have foreign : isDigit 10 c = false := by
            rcases ends c t rfl with rfl | rfl | rfl <;> decide
          have other : c ≠ '_' := by
            rcases ends c t rfl with rfl | rfl | rfl <;> decide
          rw [List.nil_append, moreDigits.eq_2 _ _ _ fun _ _ same => absurd same other, foreign]
          rfl
  | cons c ds ih =>
      have digit := digits c (List.mem_cons_self ..)
      have other : c ≠ '_' := ne_of_class digit (by decide)
      rw [List.cons_append, moreDigits.eq_2 _ _ _ fun _ _ same => absurd same other, if_pos digit,
        ih fun d member => digits d (List.mem_cons_of_mem _ member)]

/-- The digits of a number are read as a whole. -/
theorem wholeDigits?_eq (numeral : Numeral n ds) (ends : Ends rest) :
    wholeDigits? (ds ++ rest) = some (ds, rest) := by
  obtain ⟨c, front, rfl⟩ := List.exists_cons_of_ne_nil numeral.filled
  by_cases zero : c = '0'
  · subst zero
    rw [numeral.lead front rfl]
    rfl
  · have digit := numeral.digits c (List.mem_cons_self ..)
    rw [List.cons_append, wholeDigits?.eq_2 _ fun _ same => zero (List.cons.inj same).1, digits?,
      if_pos digit, moreDigits_eq (fun d member => numeral.digits d (List.mem_cons_of_mem _ member))
        ends]

theorem sign_eq (digits : Digits ds) (ends : Ends rest) :
    sign (ds ++ rest) = (false, ds ++ rest) :=
  sign.eq_3 _ (digits.notAhead ends (by decide) (by decide))
    (digits.notAhead ends (by decide) (by decide))

theorem integer?_eq (numeral : Numeral n ds) (small : n < integerBound) (ends : Ends rest) :
    integer? (ds ++ rest) = some (.integer n, rest) := by
  -- a zero is the only digit, so no letter of another base comes behind it
  have decimal : ∀ x, x ≠ '\n' ∧ x ≠ ',' ∧ x ≠ ']' → isDigit 10 x = false →
      ∀ u, ds ++ rest = '0' :: x :: u → False := by
    intro x other foreign u same
    obtain ⟨c, front, rfl⟩ := List.exists_cons_of_ne_nil numeral.filled
    obtain ⟨rfl, later⟩ := List.cons.inj same
    rw [numeral.lead front rfl] at later
    exact ends.notAhead other u later
  rw [integer?.eq_4 _ (decimal 'x' (by decide) (by decide)) (decimal 'o' (by decide) (by decide))
    (decimal 'b' (by decide) (by decide)), decimal?, sign_eq numeral.digits ends]
  dsimp only
  rw [wholeDigits?_eq numeral ends]
  dsimp only
  rw [if_neg Bool.false_ne_true, numeral.value, if_pos small]

theorem exponent_eq (ends : Ends rest) : exponent rest = (none, rest) := by
  cases rest with
  | nil => rfl
  | cons c t =>
      rcases ends c t rfl with rfl | rfl | rfl <;> rfl

theorem float?_eq (numeral : Numeral n ds) (ends : Ends rest) : float? (ds ++ rest) = none := by
  rw [float?, sign_eq numeral.digits ends]
  dsimp only
  rw [wholeDigits?_eq numeral ends]
  dsimp only
  rw [fraction.eq_2 _ (ends.notAhead (by decide)), exponent_eq ends]
  rfl

theorem readChar_of_notAhead {x : Char} {s : List Char} (other : NotAhead x s) :
    readChar x s = none := by
  cases s with
  | nil => rfl
  | cons c t =>
      refine if_neg ?_
      rintro rfl
      exact other t rfl

/-- Digits that are read are digits of the number. -/
theorem exists_of_fixedDigits? (digits : Digits ds) (ends : Ends rest) {count low high v : Nat}
    {r : List Char} (read : fixedDigits? count low high (ds ++ rest) = some (v, r)) :
    ∃ later, Digits later ∧ r = later ++ rest := by
  rw [fixedDigits?] at read
  split at read
  · rename_i fixed
    obtain ⟨-, rfl⟩ := Prod.mk.inj (Option.some.inj read)
    by_cases inside : count ≤ ds.length
    · exact ⟨ds.drop count, fun c member => digits c (List.mem_of_mem_drop member),
        List.drop_append_of_le_length inside⟩
    · -- what follows the digits would have to be a digit as well
      obtain ⟨more, rfl⟩ : ∃ more, count = ds.length + (more + 1) :=
        ⟨count - ds.length - 1, by omega⟩
      rw [List.take_length_add_append] at fixed
      cases rest with
      | nil =>
          have length := fixed.1
          rw [List.take_nil, List.append_nil] at length
          omega
      | cons c t =>
          have digit := List.all_eq_true.mp fixed.2.1 c
            (List.mem_append_right _ (List.mem_cons_self ..))
          rcases ends c t rfl with rfl | rfl | rfl <;> cases digit
  · cases read

/-- No other character comes right behind them. -/
theorem fixedDigits?_bind (digits : Digits ds) (ends : Ends rest) {x : Char}
    (foreign : isDigit 10 x = false) (other : x ≠ '\n' ∧ x ≠ ',' ∧ x ≠ ']')
    (count low high : Nat) (next : Nat × List Char → List Char → Option (List Char)) :
    ((fixedDigits? count low high (ds ++ rest)).bind fun step =>
      (readChar x step.2).bind (next step)) = none := by
  refine Option.bind_eq_none_iff.mpr fun step read => ?_
  obtain ⟨later, digits, same⟩ := exists_of_fixedDigits? digits ends read
  rw [same, readChar_of_notAhead (digits.notAhead ends foreign other)]
  rfl

theorem moment?_eq (digits : Digits ds) (ends : Ends rest) : moment? (ds ++ rest) = none := by
  have date : date? (ds ++ rest) = none :=
    fixedDigits?_bind digits ends (x := '-') (by decide) (by decide) 4 0 9999 _
  have time : time? (ds ++ rest) = none :=
    fixedDigits?_bind digits ends (x := ':') (by decide) (by decide) 2 0 23 _
  rw [moment?, date, time]
  rfl

/-- What does not begin with a quote is not read as a string. -/
theorem readString?_of_notAhead {s : List Char} (double : NotAhead '"' s)
    (single : NotAhead '\'' s) : readString? s = none := by
  rw [readString?]
  · rfl
  · exact fun _ => double _
  · exact double
  · exact fun _ => single _
  · exact single

theorem scalar?_numeral (numeral : Numeral n ds) (small : n < integerBound) (ends : Ends rest) :
    scalar? (ds ++ rest) = some (.integer n, rest) := by
  have ahead : ∀ x, isDigit 10 x = false → x ≠ '\n' ∧ x ≠ ',' ∧ x ≠ ']' →
      NotAhead x (ds ++ rest) := fun x => numeral.digits.notAhead ends
  rw [scalar?, readString?_of_notAhead (ahead '"' (by decide) (by decide))
      (ahead '\'' (by decide) (by decide)),
    boolean?.eq_3 _ (fun _ => ahead 't' (by decide) (by decide) _)
      (fun _ => ahead 'f' (by decide) (by decide) _),
    moment?_eq numeral.digits ends, float?_eq numeral ends, integer?_eq numeral small ends]
  rfl

end

/-! ## Values -/

/-- Values of the kinds that settings have, with arrays nested at most so deep. -/
inductive Plain : Nat → Value → Prop
  | string {depth : Nat} (s : String) : Plain depth (.string s)
  | integer {depth n : Nat} : n < integerBound → Plain depth (.integer n)
  | boolean {depth : Nat} (b : Bool) : Plain depth (.boolean b)
  | array {depth : Nat} {items : List Value} : (∀ v ∈ items, Plain depth v) →
      Plain (depth + 1) (.array true items)

/-- Whether a value may begin with a character. -/
def opens (c : Char) : Bool :=
  c == '"' || c == '\'' || c == '[' || c == 't' || c == 'f' || isDigit 10 c

/-- A string is written behind a quote. -/
theorem exists_writeString (s : List Char) :
    ∃ q t, writeString s = q :: t ∧ (q = '"' ∨ q = '\'') := by
  rw [writeString]
  cases QuoteStyle.ofText s with
  | basic => exact ⟨_, _, rfl, .inl rfl⟩
  | literal => exact ⟨_, _, rfl, .inr rfl⟩
  | basicLines => exact ⟨_, _, rfl, .inl rfl⟩
  | literalLines => exact ⟨_, _, rfl, .inr rfl⟩

theorem writeItems_eq (items : List Value) : writeItems items = items.map writeValue := by
  induction items with
  | nil => rw [writeItems, List.map_nil]
  | cons v items ih => rw [writeItems, ih, List.map_cons]

theorem opens_of_isDigit {c : Char} (digit : isDigit 10 c = true) : opens c = true := by
  rw [opens, digit, Bool.or_true]

/-- A value begins with one of these characters. -/
theorem Plain.exists_opens {depth : Nat} {v : Value} (plain : Plain depth v) :
    ∃ c t, writeValue v = c :: t ∧ opens c = true := by
  cases plain with
  | string s =>
      obtain ⟨q, t, written, quote⟩ := exists_writeString s.toList
      refine ⟨q, t, by rw [writeValue, written], ?_⟩
      rcases quote with rfl | rfl <;> rfl
  | @integer depth n small =>
      have numeral := numeral_toDigits n
      obtain ⟨c, t, written⟩ := List.exists_cons_of_ne_nil numeral.filled
      have digit := numeral.digits c (written ▸ List.mem_cons_self ..)
      exact ⟨c, t, by rw [writeValue, toList_toString, written], opens_of_isDigit digit⟩
  | boolean b => cases b <;> exact ⟨_, _, rfl, rfl⟩
  | @array depth items all =>
      rw [writeValue, writeItems_eq]
      match items with
      | [] => exact ⟨_, _, rfl, rfl⟩
      | [v] => exact ⟨_, _, rfl, rfl⟩
      | v :: w :: items => exact ⟨_, _, rfl, rfl⟩

/-- So no blank, no line break and no closing bracket comes first. -/
theorem Plain.notAhead {depth : Nat} {v : Value} (plain : Plain depth v) {x : Char}
    (foreign : opens x = false) (tail : List Char) : NotAhead x (writeValue v ++ tail) := by
  obtain ⟨c, t, written, own⟩ := plain.exists_opens
  rw [written]
  exact notAhead_cons (ne_of_class own foreign) _

/-- There is no filler in front of a plain value. -/
theorem Plain.skipFiller_eq {depth : Nat} {v : Value} (plain : Plain depth v)
    (tail : List Char) : skipFiller false (writeValue v ++ tail) = writeValue v ++ tail :=
  skipFiller.eq_7 _ _ (plain.notAhead rfl tail) (fun _ => plain.notAhead rfl tail _)
    (fun _ _ => plain.notAhead rfl tail _) (fun _ _ => plain.notAhead rfl tail _)
    (fun _ _ => plain.notAhead rfl tail _) nofun

/-! ## Arrays -/

section

variable {read : Scan Value} {bound : Nat} {s s' rest : List Char} {v : Value}

theorem items?_end (front : skipFiller false s = ']' :: rest) :
    items? read (bound + 1) s = some ([], rest) := by
  rw [items?.eq_2, front]
  rfl

/-- An item before the bracket is the last one. -/
theorem items?_last (front : skipFiller false s = s') (item : NotAhead ']' s')
    (given : read s' = some (v, ']' :: rest)) :
    items? read (bound + 1) s = some ([v], rest) := by
  rw [items?.eq_2, front]
  split
  · exact absurd rfl (item _)
  · rw [given]
    rfl

/-- An item before a comma is followed by the others. -/
theorem items?_more (front : skipFiller false s = s') (item : NotAhead ']' s')
    (given : read s' = some (v, ',' :: rest)) :
    items? read (bound + 1) s = (items? read bound rest).map fun (vs, rest) => (v :: vs, rest) := by
  rw [items?.eq_2, front]
  split
  · exact absurd rfl (item _)
  · rw [given]
    rfl

end

/-- The line of an item of a longer array. -/
def itemLine (v : Value) : List Char := "    ".toList ++ writeValue v ++ ",\n".toList

theorem length_le_lines (items : List Value) : items.length ≤ (items.flatMap itemLine).length := by
  induction items with
  | nil => exact Nat.le_refl _
  | cons v items ih =>
      have line : 0 < (itemLine v).length := Nat.succ_pos _
      rw [List.flatMap_cons, List.length_append, List.length_cons]
      omega

/-- The items of an array are read back from their lines. -/
theorem items?_lines {depth : Nat} {read : Scan Value} {items : List Value} :
    ∀ {bound : Nat}, (∀ v ∈ items, Plain depth v ∧
        ∀ rest, Ends rest → read (writeValue v ++ rest) = some (v, rest)) →
      items.length < bound → ∀ rest,
        items? read bound ('\n' :: (items.flatMap itemLine ++ ']' :: rest))
          = some (items, rest) := by
  induction items with
  | nil =>
      intro bound _ long rest
      obtain ⟨b, rfl⟩ := Nat.exists_eq_add_of_lt long
      exact items?_end rfl
  | cons v items ih =>
      intro bound all long rest
      rw [List.length_cons] at long
      obtain ⟨b, rfl⟩ : ∃ b, bound = b + 1 := ⟨bound - 1, by omega⟩
      obtain ⟨plain, given⟩ := all v (List.mem_cons_self ..)
      -- the line break in front is the one behind the item before
      have front : skipFiller false ('\n' :: ((v :: items).flatMap itemLine ++ ']' :: rest)) =
          writeValue v ++ ',' :: '\n' :: (items.flatMap itemLine ++ ']' :: rest) := by
        have line : (v :: items).flatMap itemLine ++ ']' :: rest = ' ' :: ' ' :: ' ' :: ' ' ::
            (writeValue v ++ ',' :: '\n' :: (items.flatMap itemLine ++ ']' :: rest)) := by
          simp [itemLine]
        rw [line]
        exact plain.skipFiller_eq _
      rw [items?_more front (plain.notAhead rfl _) (given _ (ends_cons (.inr (.inl rfl)) _)),
        ih (fun w member => all w (List.mem_cons_of_mem _ member)) (Nat.lt_of_succ_lt_succ long)]
      rfl

/-- The three layouts of an array: nothing, one item on the line, or a line for each. -/
theorem value?_array {depth : Nat} {items : List Value} (all : ∀ v ∈ items, Plain depth v ∧
      ∀ rest, Ends rest → value? depth (writeValue v ++ rest) = some (v, rest)) (rest : List Char) :
    value? (depth + 1) (writeValue (.array true items) ++ rest)
      = some (.array true items, rest) := by
  rw [writeValue, writeItems_eq]
  match items with
  | [] => rfl
  | [v] =>
      obtain ⟨plain, given⟩ := all v (List.mem_cons_self ..)
      show value? (depth + 1) ('[' :: (writeValue v ++ [']'] ++ rest)) = _
      rw [List.append_assoc, List.singleton_append, value?.eq_2,
        items?_last (plain.skipFiller_eq _) (plain.notAhead rfl _)
          (given _ (ends_cons (.inr (.inr rfl)) _))]
      rfl
  | v :: w :: items =>
      -- the fuel of the reader of items counts the characters, and each item has some
      have layout : "[\n".toList ++ ((v :: w :: items).map writeValue).flatMap
            (fun t => "    ".toList ++ t ++ ",\n".toList) ++ "]".toList ++ rest
          = '[' :: '\n' :: ((v :: w :: items).flatMap itemLine ++ ']' :: rest) := by
        rw [List.flatMap_map, List.append_assoc, List.append_assoc]
        rfl
      have long := length_le_lines (v :: w :: items)
      refine (congrArg (value? (depth + 1)) layout).trans ?_
      rw [value?.eq_2, items?_lines all]
      · rfl
      · simp only [List.length_cons, List.length_append] at long ⊢
        omega

/-! ## Values of every kind -/

/-- What is neither an array nor a table is read as a scalar. -/
theorem value?_of_scalar {s : List Char} (array : NotAhead '[' s) (table : NotAhead '\x7b' s)
    (depth : Nat) : value? depth s = scalar? s := by
  cases depth with
  | zero => rfl
  | succ depth => exact value?.eq_4 s depth array table

/-- A string is read back. -/
theorem scalar?_string {rest : List Char} (ends : Ends rest) (s : String) :
    scalar? (writeString s.toList ++ rest) = some (.string s, rest) := by
  rw [scalar?, readString?_writeString (ends.notAhead (by decide)) (ends.notAhead (by decide)),
    String.ofList_toList]
  rfl

/-- **A value is read back**, and what follows is left. -/
theorem value?_writeValue {depth : Nat} {v : Value} (plain : Plain depth v) :
    ∀ {rest}, Ends rest → value? depth (writeValue v ++ rest) = some (v, rest) := by
  induction plain with
  | @string depth s =>
      intro rest ends
      -- a string begins with a quote of one of two kinds, so no array or table is begun
      obtain ⟨q, t, written, quote⟩ := exists_writeString s.toList
      have ahead : ∀ x, x ≠ '"' → x ≠ '\'' → NotAhead x (writeString s.toList ++ rest) := by
        intro x double single
        rw [written]
        rcases quote with rfl | rfl
        · exact notAhead_cons double.symm _
        · exact notAhead_cons single.symm _
      rw [writeValue, value?_of_scalar (ahead '[' (by decide) (by decide))
        (ahead '\x7b' (by decide) (by decide)), scalar?_string ends]
  | @integer depth n small =>
      intro rest ends
      have numeral := numeral_toDigits n
      rw [writeValue, toList_toString, value?_of_scalar
        (numeral.digits.notAhead ends (by decide) (by decide))
        (numeral.digits.notAhead ends (by decide) (by decide)),
        scalar?_numeral numeral small ends]
  | @boolean depth b =>
      intro rest ends
      have plain : Plain depth (.boolean b) := .boolean b
      have other : ∀ {x}, opens x = false → NotAhead x (writeValue (.boolean b) ++ rest) :=
        fun foreign => plain.notAhead foreign rest
      cases b with
      | true => exact value?_of_scalar (notAhead_cons (by decide) _) (other rfl) _
      | false => exact value?_of_scalar (notAhead_cons (by decide) _) (other rfl) _
  | array all ih =>
      intro rest _
      exact value?_array (fun v member => ⟨all v member, fun _ => ih v member⟩) rest

end PeerMessaging.Toml
