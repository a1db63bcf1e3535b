import PeerMessaging.Toml.QuoteStyle

/-!
# Strings are read back

Whatever a string holds, the reader takes just the text that was written for it off the front and
gives the string back, as long as no quote follows. Between double quotes each character is either
itself or an escape that stands for it. Tripled quotes are the hard part, for they end a string
only if a third one follows: the reader looks at up to five quotes at once, so a quote may be read
by itself only if no two others come right behind it. The writer lets no third quote in a row stand
without a backslash, and a string with three of them gets no single quotes. So two more quotes come
behind a quote only where the string ends.
-/

namespace PeerMessaging.Toml

/-- The text does not begin with a character. -/
def NotAhead (c : Char) (rest : List Char) : Prop := ∀ u, rest ≠ c :: u

/-- The text does not begin with two quotes of a kind. -/
def FewQuotes (quote : Char) (rest : List Char) : Prop := ∀ u, rest ≠ quote :: quote :: u

theorem NotAhead.few {quote : Char} {rest : List Char} (h : NotAhead quote rest) :
    FewQuotes quote rest :=
  fun u => h (quote :: u)

theorem notAhead_cons {quote c : Char} (other : c ≠ quote) (rest : List Char) :
    NotAhead quote (c :: rest) := by
  intro u same
  exact other (List.cons.inj same).1

theorem NotAhead.few_cons {quote c : Char} {rest : List Char} (h : NotAhead quote rest) :
    FewQuotes quote (c :: rest) := by
  intro u same
  exact h u (List.cons.inj same).2

/-! ## Escapes -/

/-- Only some of the first 128 characters may not stand in a string. -/
theorem toNat_lt_of_not_text {c : Char} (special : isTextChar c = false) : c.toNat < 128 := by
  rw [isTextChar, Bool.or_eq_false_iff, Bool.and_eq_false_iff] at special
  rcases special.2 with low | delete
  · have below : c < ' ' := Char.not_le.mp (of_decide_eq_false low)
    exact Nat.lt_trans (show c.toNat < 32 from below) (by decide)
  · obtain rfl : c = '\x7f' := Decidable.not_not.mp (of_decide_eq_false delete)
    decide

/-- Such a character is the one with the number in its escape. -/
theorem hexEscape_low : ∀ n : Fin 128,
    ['0', '0', (Bytes.hexDigit (n / 16)).toUpper, (Bytes.hexDigit (n % 16)).toUpper].all
        (Text.isDigit 16) = true ∧
      charOfNat? (Text.digitsValue 16
        ['0', '0', (Bytes.hexDigit (n / 16)).toUpper, (Bytes.hexDigit (n % 16)).toUpper])
          = some (Char.ofNat n) := by
  decide

/-- The escape by number is read as its character. -/
theorem escape?_number {c : Char} (special : isTextChar c = false) (r : List Char) :
    escape? ('u' :: '0' :: '0' :: (Bytes.hexDigit (c.toNat / 16)).toUpper ::
      (Bytes.hexDigit (c.toNat % 16)).toUpper :: r) = some (c, r) := by
  obtain ⟨digits, value⟩ := hexEscape_low ⟨c.toNat, toNat_lt_of_not_text special⟩
  rw [Char.ofNat_toNat] at value
  show hexEscape? 4 _ = _
  rw [hexEscape?]
  show (if _ then (charOfNat? _).map _ else none) = _
  rw [if_pos ⟨rfl, digits⟩]
  show (charOfNat? (Text.digitsValue 16 ['0', '0', _, _])).map _ = _
  rw [value]
  rfl

/-- A character is written as itself, or as an escape that stands for it. -/
theorem writeChar_cases (tripled : Bool) (c : Char) :
    (writeChar tripled c = [c] ∧ c ≠ '\\' ∧ (isTextChar c = true ∨ tripled = true ∧ c = '\n')) ∨
      ∃ e, writeChar tripled c = '\\' :: e ∧ (∀ r, escape? (e ++ r) = some (c, r)) ∧
        ∀ r, continuation? (e ++ r) = none := by
  by_cases lineBreak : c = '\n'
  · subst lineBreak
    cases tripled with
    | true => exact .inl ⟨rfl, by decide, .inr ⟨rfl, rfl⟩⟩
    | false => exact .inr ⟨['n'], rfl, fun _ => rfl, fun _ => rfl⟩
  by_cases backspace : c = '\x08'
  · subst backspace
    exact .inr ⟨['b'], rfl, fun _ => rfl, fun _ => rfl⟩
  by_cases tab : c = '\t'
  · subst tab
    exact .inr ⟨['t'], rfl, fun _ => rfl, fun _ => rfl⟩
  by_cases formFeed : c = '\x0c'
  · subst formFeed
    exact .inr ⟨['f'], rfl, fun _ => rfl, fun _ => rfl⟩
  by_cases carriageReturn : c = '\r'
  · subst carriageReturn
    exact .inr ⟨['r'], rfl, fun _ => rfl, fun _ => rfl⟩
  by_cases backslash : c = '\\'
  · subst backslash
    exact .inr ⟨['\\'], rfl, fun _ => rfl, fun _ => rfl⟩
  rw [writeChar, if_neg lineBreak, if_neg backspace, if_neg tab, if_neg formFeed,
    if_neg carriageReturn, if_neg backslash]
  cases text : isTextChar c with
  | true => exact .inl ⟨if_pos rfl, backslash, .inl rfl⟩
  | false => exact .inr ⟨_, if_neg Bool.false_ne_true, escape?_number text, fun _ => rfl⟩

/-- No text of another character begins with a quote. -/
theorem head_writeChar {c : Char} (other : c ≠ '"') (tripled : Bool) :
    ∃ x e, writeChar tripled c = x :: e ∧ x ≠ '"' := by
  rcases writeChar_cases tripled c with ⟨itself, -, -⟩ | ⟨e, escaped, -, -⟩
  · exact ⟨c, [], itself, other⟩
  · exact ⟨'\\', e, escaped, by decide⟩

/-- Where quotes need a backslash no text begins with one. -/
theorem notAhead_writeBasic {tripled : Bool} {count : Nat}
    (escaped : (tripled && decide (count < 2)) = false) (c : Char) (s tail : List Char) :
    NotAhead '"' (writeBasic tripled count (c :: s) ++ tail) := by
  rw [writeBasic]
  by_cases quote : c = '"'
  · rw [if_pos quote, escaped, if_neg Bool.false_ne_true]
    exact notAhead_cons (by decide) _
  · obtain ⟨x, e, written, other⟩ := head_writeChar quote tripled
    rw [if_neg quote, written]
    exact notAhead_cons other _

/-! ## Double quotes on one line -/

/-- An escape in a string of one line is read as its character. -/
theorem basicBody_escape {e r : List Char} {c : Char} (escape : escape? (e ++ r) = some (c, r)) :
    basicBody ('\\' :: (e ++ r)) = before c (basicBody r) := by
  rw [basicBody]
  split
  · rename_i same
    cases escape.symm.trans same
    rfl
  · rename_i none
    cases escape.symm.trans none

/-- A string of one line is read back from what the writer gives. -/
theorem basicBody_writeBasic (s rest : List Char) :
    basicBody (writeBasic false 0 s ++ '"' :: rest) = some (s, rest) := by
  induction s with
  | nil => rw [writeBasic, List.nil_append, basicBody]
  | cons c s ih =>
      rw [writeBasic]
      by_cases quote : c = '"'
      · subst quote
        have escape : ∀ r, escape? (['"'] ++ r) = some ('"', r) := fun _ => rfl
        exact (basicBody_escape (escape _)).trans (ih ▸ rfl)
      · rw [if_neg quote, List.append_assoc]
        rcases writeChar_cases false c with ⟨itself, plain, text⟩ | ⟨e, escaped, escape, -⟩
        · obtain text := text.resolve_right (fun h => Bool.false_ne_true h.1)
          rw [itself, List.singleton_append, basicBody.eq_4 _ _ quote plain, if_pos text, ih]
          rfl
        · rw [escaped, List.cons_append, basicBody_escape (escape _), ih]
          rfl

/-! ## Tripled double quotes -/

/-- A quote that does not end a string of several lines belongs to it. -/
theorem basicLines_quote {t : List Char} (few : FewQuotes '"' t) :
    basicLines ('"' :: t) = before '"' (basicLines t) :=
  basicLines.eq_5 t (fun _ => few _) (fun _ => few _) fun _ => few _

/-- An escape in a string of several lines is read as its character. -/
theorem basicLines_escape {e r : List Char} {c : Char} (escape : escape? (e ++ r) = some (c, r))
    (none : continuation? (e ++ r) = none) :
    basicLines ('\\' :: (e ++ r)) = before c (basicLines r) := by
  rw [basicLines]
  split
  · rename_i continued
    cases none.symm.trans continued
  · split
    · rename_i same
      cases escape.symm.trans same
      rfl
    · rename_i none
      cases escape.symm.trans none

/-- A character that stands for itself. -/
theorem basicLines_char {c : Char} (quote : c ≠ '"') (plain : c ≠ '\\')
    (shown : isTextChar c = true ∨ c = '\n') (r : List Char) :
    basicLines (c :: r) = before c (basicLines r) := by
  rw [basicLines.eq_7 c r (fun _ h => absurd h quote) (fun _ h => absurd h quote)
    (fun _ h => absurd h quote) quote plain]
  rcases shown with text | rfl
  · rw [if_pos text]
  · rw [if_neg (by decide)]
    split
    · rename_i same
      cases same
      rfl
    · rename_i none
      cases none

/-- Three quotes end the string, and up to two before them belong to it. -/
theorem basicLines_end {rest : List Char} (free : NotAhead '"' rest) :
    basicLines ('"' :: '"' :: '"' :: rest) = some ([], rest) ∧
      basicLines ('"' :: '"' :: '"' :: '"' :: rest) = some (['"'], rest) ∧
      basicLines ('"' :: '"' :: '"' :: '"' :: '"' :: rest) = some (['"', '"'], rest) :=
  ⟨basicLines.eq_4 rest (fun _ => free.few _) (fun _ => free _),
    basicLines.eq_3 rest (fun _ => free _), basicLines.eq_2 rest⟩

/-- What comes behind a quote that was written as itself. -/
theorem few_writeBasic {count : Nat} (few : count < 2) (s tail : List Char) :
    s = [] ∨ (s = ['"'] ∧ count = 0) ∨ FewQuotes '"' (writeBasic true (count + 1) s ++ tail) := by
  cases s with
  | nil => exact .inl rfl
  | cons c s =>
      rw [writeBasic]
      by_cases quote : c = '"'
      · rw [if_pos quote]
        by_cases last : count = 0
        · subst last quote
          cases s with
          | nil => exact .inr (.inl ⟨rfl, rfl⟩)
          | cons d s => exact .inr (.inr (notAhead_writeBasic rfl d s tail).few_cons)
        · obtain rfl : count = 1 := by omega
          exact .inr (.inr (notAhead_cons (by decide) _).few)
      · obtain ⟨x, e, written, other⟩ := head_writeChar quote true
        rw [if_neg quote, written]
        exact .inr (.inr (notAhead_cons other _).few)

/-- A string of several lines is read back from what the writer gives. -/
theorem basicLines_writeBasic {rest : List Char} (free : NotAhead '"' rest) {s : List Char} :
    ∀ count, basicLines (writeBasic true count s ++ '"' :: '"' :: '"' :: rest)
      = some (s, rest) := by
  obtain ⟨three, four, five⟩ := basicLines_end free
  induction s with
  | nil => intro count; exact three
  | cons c s ih =>
      intro count
      by_cases quote : c = '"'
      · subst quote
        -- two quotes in a row stay as they are, and the third is escaped
        by_cases few : count < 2
        · have written : writeBasic true count ('"' :: s)
              = '"' :: writeBasic true (count + 1) s := by
            rw [writeBasic, if_pos rfl, if_pos (by rw [decide_eq_true few]; rfl)]
          rw [written]
          rcases few_writeBasic few s ('"' :: '"' :: '"' :: rest) with rfl | ⟨rfl, rfl⟩ | apart
          · exact four
          · exact five
          · rw [List.cons_append, basicLines_quote apart, ih]
            rfl
        · have written : writeBasic true count ('"' :: s)
              = '\\' :: (['"'] ++ writeBasic true 0 s) := by
            rw [writeBasic, if_pos rfl, if_neg (by rw [decide_eq_false few]; decide)]
            rfl
          rw [written, List.cons_append, List.append_assoc, basicLines_escape rfl rfl, ih]
          rfl
      · rw [writeBasic, if_neg quote, List.append_assoc]
        rcases writeChar_cases true c with ⟨itself, plain, shown⟩ | ⟨e, escaped, escape, none⟩
        · rw [itself, List.singleton_append,
            basicLines_char quote plain (shown.imp_right And.right), ih]
          rfl
        · rw [escaped, List.cons_append, basicLines_escape (escape _) (none _), ih]
          rfl

/-! ## Single quotes -/

/-- A literal string of one line is read back. -/
theorem literalBody_text {s : List Char} (fits : fitsLiteral s = true) (rest : List Char) :
    literalBody (s ++ '\'' :: rest) = some (s, rest) := by
  induction s with
  | nil => rw [List.nil_append, literalBody]
  | cons c s ih =>
      rw [fitsLiteral, List.all_cons, Bool.and_eq_true, Bool.and_eq_true, decide_eq_true_eq] at fits
      obtain ⟨⟨text, other⟩, fits⟩ := fits
      rw [List.cons_append, literalBody.eq_3 _ _ other, if_pos text, ih fits]
      rfl

/-- A quote that does not end a literal string of several lines belongs to it. -/
theorem literalLines_quote {t : List Char} (few : FewQuotes '\'' t) :
    literalLines ('\'' :: t) = before '\'' (literalLines t) :=
  literalLines.eq_5 t (fun _ => few _) (fun _ => few _) fun _ => few _

/-- A character in a literal string of several lines stands for itself. -/
theorem literalLines_char {c : Char} (quote : c ≠ '\'') (fine : isControl c = false)
    (r : List Char) : literalLines (c :: r) = before c (literalLines r) := by
  by_cases lineBreak : c = '\n'
  · subst lineBreak
    rfl
  · have text : isTextChar c = true := by
      rw [isControl, decide_eq_true lineBreak, Bool.and_true, Bool.not_eq_false'] at fine
      exact fine
    have shown : c = '\r' → False := by
      rintro rfl
      exact absurd text (by decide)
    rw [literalLines.eq_8 c r (fun _ h => absurd h quote) (fun _ h => absurd h quote)
      (fun _ h => absurd h quote) quote lineBreak (fun _ h => absurd h shown), if_pos text]

theorem literalLines_end {rest : List Char} (free : NotAhead '\'' rest) :
    literalLines ('\'' :: '\'' :: '\'' :: rest) = some ([], rest) ∧
      literalLines ('\'' :: '\'' :: '\'' :: '\'' :: rest) = some (['\''], rest) ∧
      literalLines ('\'' :: '\'' :: '\'' :: '\'' :: '\'' :: rest)
        = some (['\'', '\''], rest) :=
  ⟨literalLines.eq_4 rest (fun _ => free.few _) (fun _ => free _),
    literalLines.eq_3 rest (fun _ => free _), literalLines.eq_2 rest⟩

/-- A run that is under way counts for the longest run. -/
theorem le_longestRun {quote : Char} {s : List Char} :
    ∀ count, count ≤ longestRun quote count s := by
  induction s with
  | nil => intro count; exact Nat.le_refl _
  | cons c s ih =>
      intro count
      rw [longestRun]
      split
      · exact Nat.le_trans (Nat.le_succ _) (ih _)
      · exact Nat.le_max_left ..

/-- A run of at most two quotes goes on with two more only where the string ends. -/
theorem few_of_longestRun {quote : Char} {count : Nat} {s : List Char}
    (short : longestRun quote (count + 1) s ≤ 2) (tail : List Char) :
    s = [] ∨ s = [quote] ∨ FewQuotes quote (s ++ tail) := by
  match s with
  | [] => exact .inl rfl
  | [c] =>
      by_cases same : c = quote
      · exact .inr (.inl (same ▸ rfl))
      · exact .inr (.inr (notAhead_cons same _).few)
  | c :: d :: s =>
      refine .inr (.inr ?_)
      by_cases same : c = quote
      · rw [longestRun, if_pos same, longestRun] at short
        have other : d ≠ quote := by
          intro again
          rw [if_pos again] at short
          have := @le_longestRun quote s (count + 1 + 1 + 1)
          omega
        exact (notAhead_cons other _).few_cons
      · exact (notAhead_cons same _).few

/-- A literal string of several lines is read back if no run of quotes is too long. -/
theorem literalLines_text {rest : List Char} (free : NotAhead '\'' rest) {s : List Char} :
    ∀ {count}, (s.all (!isControl ·)) = true → longestRun '\'' count s ≤ 2 →
      literalLines (s ++ '\'' :: '\'' :: '\'' :: rest) = some (s, rest) := by
  obtain ⟨three, four, five⟩ := literalLines_end free
  induction s with
  | nil => intro count _ _; exact three
  | cons c s ih =>
      intro count fine short
      rw [List.all_cons, Bool.and_eq_true, Bool.not_eq_true'] at fine
      rw [longestRun] at short
      by_cases quote : c = '\''
      · subst quote
        rw [if_pos rfl] at short
        rcases few_of_longestRun short ('\'' :: '\'' :: '\'' :: rest) with rfl | rfl | apart
        · exact four
        · exact five
        · rw [List.cons_append, literalLines_quote apart, ih fine.2 short]
          rfl
      · rw [if_neg quote] at short
        rw [List.cons_append, literalLines_char quote fine.1,
          ih fine.2 (Nat.le_trans (Nat.le_max_right ..) short)]
        rfl

/-! ## Strings of every kind -/

theorem skipLineBreak_of_text {c : Char} (text : isTextChar c = true) (t : List Char) :
    skipLineBreak (c :: t) = c :: t := by
  rw [skipLineBreak, lineBreak?.eq_3, Option.getD_none]
  · rintro u same
    rw [(List.cons.inj same).1] at text
    exact absurd text (by decide)
  · rintro u same
    rw [(List.cons.inj same).1] at text
    exact absurd text (by decide)

/-- A text without line breaks does not begin with one between tripled double quotes. -/
theorem skipLineBreak_writeBasic {s : List Char} (oneLine : '\n' ∉ s) (tail : List Char) :
    skipLineBreak (writeBasic true 0 s ++ '"' :: tail) = writeBasic true 0 s ++ '"' :: tail := by
  cases s with
  | nil => rfl
  | cons c s =>
      rw [writeBasic]
      by_cases quote : c = '"'
      · rw [if_pos quote]
        rfl
      · rw [if_neg quote]
        rcases writeChar_cases true c with ⟨itself, -, text | ⟨-, rfl⟩⟩ | ⟨e, escaped, -, -⟩
        · rw [itself]
          exact skipLineBreak_of_text text _
        · exact absurd (List.mem_cons_self ..) oneLine
        · rw [escaped]
          rfl

/-- Nor between tripled single quotes. -/
theorem skipLineBreak_text {s : List Char} (fine : (s.all (!isControl ·)) = true)
    (oneLine : '\n' ∉ s) (tail : List Char) :
    skipLineBreak (s ++ '\'' :: tail) = s ++ '\'' :: tail := by
  cases s with
  | nil => rfl
  | cons c s =>
      have other : c ≠ '\n' := fun same => oneLine (same ▸ List.mem_cons_self ..)
      rw [List.all_cons, Bool.and_eq_true, isControl, decide_eq_true other, Bool.and_true,
        Bool.not_not] at fine
      exact skipLineBreak_of_text fine.1 _

/-- The line break after the opening quotes does not count. -/
theorem skipLineBreak_tripled {quote : Char} {s body : List Char}
    (oneLine : '\n' ∉ s → ∀ tail, skipLineBreak (body ++ quote :: tail) = body ++ quote :: tail)
    (rest : List Char) : ∃ inner,
      tripledText quote s body ++ rest = quote :: quote :: quote :: inner ∧
        skipLineBreak inner = body ++ quote :: quote :: quote :: rest := by
  refine ⟨(if s.contains '\n' then ['\n'] else []) ++ (body ++ quote :: quote :: quote :: rest),
    by simp [tripledText], ?_⟩
  by_cases lines : '\n' ∈ s
  · rw [if_pos (List.contains_iff_mem.mpr lines)]
    rfl
  · rw [if_neg (fun has => lines (List.contains_iff_mem.mp has))]
    exact oneLine lines _

theorem readString?_double {t : List Char} (few : FewQuotes '"' t) :
    readString? ('"' :: t) = (basicBody t).map fun (cs, rest) => (String.ofList cs, rest) := by
  rw [readString?]
  exact few

theorem readString?_single {t : List Char} (few : FewQuotes '\'' t) :
    readString? ('\'' :: t) = (literalBody t).map fun (cs, rest) => (String.ofList cs, rest) := by
  rw [readString?]
  exact few

/-- **A string is read back** as far as it was written, whatever is in it, if no quote follows. -/
theorem readString?_writeString {rest : List Char} (double : NotAhead '"' rest)
    (single : NotAhead '\'' rest) (s : List Char) :
    readString? (writeString s ++ rest) = some (String.ofList s, rest) := by
  rw [writeString]
  cases style : QuoteStyle.ofText s with
  | basic =>
      -- an empty text is two quotes, so here the rest must not begin with a third
      have few : FewQuotes '"' (writeBasic false 0 s ++ '"' :: rest) := by
        cases s with
        | nil => exact double.few_cons
        | cons c s => exact (notAhead_writeBasic rfl c s _).few
      show readString? (['"'] ++ writeBasic false 0 s ++ ['"'] ++ rest) = _
      rw [List.append_assoc, List.append_assoc]
      show readString? ('"' :: (writeBasic false 0 s ++ '"' :: rest)) = _
      rw [readString?_double few, basicBody_writeBasic]
      rfl
  | literal =>
      have fits := fitsLiteral_of_ofText style
      have few : FewQuotes '\'' (s ++ '\'' :: rest) := by
        cases s with
        | nil => cases style -- an empty text is written in double quotes
        | cons c s =>
            rw [fitsLiteral, List.all_cons, Bool.and_eq_true, Bool.and_eq_true,
              decide_eq_true_eq] at fits
            exact (notAhead_cons fits.1.2 _).few
      show readString? (['\''] ++ s ++ ['\''] ++ rest) = _
      rw [List.append_assoc, List.append_assoc]
      show readString? ('\'' :: (s ++ '\'' :: rest)) = _
      rw [readString?_single few, literalBody_text fits]
      rfl
  | basicLines =>
      obtain ⟨inner, written, skipped⟩ :=
        skipLineBreak_tripled (s := s) skipLineBreak_writeBasic rest
      show readString? (tripledText _ _ _ ++ _) = _
      rw [written]
      show (basicLines (skipLineBreak inner)).map _ = _
      rw [skipped, basicLines_writeBasic double]
      rfl
  | literalLines =>
      have fits := fitsLiteralLines_of_ofText style
      rw [fitsLiteralLines, Bool.and_eq_true, decide_eq_true_eq] at fits
      obtain ⟨inner, written, skipped⟩ :=
        skipLineBreak_tripled (s := s) (skipLineBreak_text fits.1) rest
      show readString? (tripledText _ _ _ ++ _) = _
      rw [written]
      show (literalLines (skipLineBreak inner)).map _ = _
      rw [skipped, literalLines_text single fits.1 fits.2]
      rfl

end PeerMessaging.Toml
