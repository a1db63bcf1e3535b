import PeerMessaging.Text.Numeral

/-!
# TOML strings

A string stands between double quotes, where a backslash begins an escape, or between single
quotes, where it does not. Either kind may be tripled to hold line breaks; a line break right
after the opening quotes does not count, and up to two quotes may stand right before the
closing ones. This module reads strings of every kind.

Main statements: an escape and a continued line take at least one character, which is why
reading ends.
-/

namespace PeerMessaging.Toml

/-- A reader takes what it reads off the front of a text. -/
abbrev Scan (α : Type) := List Char → Option (α × List Char)

/-- A blank inside a line. -/
def isBlank (c : Char) : Bool := c == ' ' || c == '\t'

/-- A character that may stand in a comment or, quotes and backslashes apart, in a string. -/
def isTextChar (c : Char) : Bool := c == '\t' || (' ' ≤ c && c ≠ '\x7f')

/-- Leaves out blanks at the front. -/
def skipBlanks (s : List Char) : List Char := s.dropWhile isBlank

/-- Takes one line break off the front. -/
def lineBreak? : List Char → Option (List Char)
  | '\n' :: rest => some rest
  | '\r' :: '\n' :: rest => some rest
  | _ => none

/-- Leaves out one line break at the front, if there is one. -/
def skipLineBreak (s : List Char) : List Char := (lineBreak? s).getD s

/-- Leaves out blanks and line breaks at the front. -/
def skipSpace : List Char → List Char
  | ' ' :: rest => skipSpace rest
  | '\t' :: rest => skipSpace rest
  | '\n' :: rest => skipSpace rest
  | '\r' :: '\n' :: rest => skipSpace rest
  | s => s

/-- The character that a one-letter escape stands for. -/
def simpleEscape? : Char → Option Char
  | 'b' => some '\x08'
  | 't' => some '\t'
  | 'n' => some '\n'
  | 'f' => some '\x0c'
  | 'r' => some '\r'
  | '"' => some '"'
  | '\\' => some '\\'
  | _ => none

/-- The character with a given number, if there is one. -/
def charOfNat? (n : Nat) : Option Char :=
  if n.isValidChar then some (Char.ofNat n) else none

/-- Reads the character whose number is given in so many hexadecimal digits. -/
def hexEscape? (count : Nat) : Scan Char := fun s =>
  let digits := s.take count
  if digits.length = count ∧ digits.all (Text.isDigit 16) then
    (charOfNat? (Text.digitsValue 16 digits)).map fun c => (c, s.drop count)
  else none

/-- Reads what follows the backslash of an escape. -/
def escape? : Scan Char
  | 'u' :: rest => hexEscape? 4 rest
  | 'U' :: rest => hexEscape? 8 rest
  | c :: rest => (simpleEscape? c).map fun e => (e, rest)
  | [] => none

/-- Reads what follows the backslash before a line break: all space up to the next text. -/
def continuation? (s : List Char) : Option (List Char) :=
  (lineBreak? (skipBlanks s)).map skipSpace

theorem length_skipBlanks_le (s : List Char) : (skipBlanks s).length ≤ s.length :=
  (List.dropWhile_suffix isBlank).length_le

theorem length_lineBreak_lt {s rest : List Char} (h : lineBreak? s = some rest) :
    rest.length < s.length := by
  unfold lineBreak? at h
  split at h
  · cases h
    exact Nat.lt_succ_self _
  · cases h
    exact Nat.lt_add_of_pos_right Nat.two_pos
  · cases h

theorem length_skipSpace_le (s : List Char) : (skipSpace s).length ≤ s.length := by
  fun_induction skipSpace s <;> simp_all <;> omega

theorem length_continuation_lt {s rest : List Char} (h : continuation? s = some rest) :
    rest.length < s.length := by
  obtain ⟨r, hr, rfl⟩ := Option.map_eq_some_iff.1 h
  exact Nat.lt_of_le_of_lt (length_skipSpace_le r)
    (Nat.lt_of_lt_of_le (length_lineBreak_lt hr) (length_skipBlanks_le s))

theorem length_hexEscape_le {n : Nat} {s rest : List Char} {c : Char}
    (h : hexEscape? n s = some (c, rest)) : rest.length ≤ s.length := by
  simp only [hexEscape?] at h
  split at h
  · obtain ⟨d, -, hd⟩ := Option.map_eq_some_iff.1 h
    obtain ⟨-, rfl⟩ := Prod.mk.inj hd
    simp
  · exact nomatch h

/-- An escape has at least one character. -/
theorem length_escape_lt {s rest : List Char} {c : Char} (h : escape? s = some (c, rest)) :
    rest.length < s.length := by
  unfold escape? at h
  split at h
  · exact Nat.lt_succ_of_le (length_hexEscape_le h)
  · exact Nat.lt_succ_of_le (length_hexEscape_le h)
  · obtain ⟨d, -, hd⟩ := Option.map_eq_some_iff.1 h
    obtain ⟨-, rfl⟩ := Prod.mk.inj hd
    simp
  · exact nomatch h

/-- Puts a character in front of what was read. -/
def before (c : Char) : Option (List Char × List Char) → Option (List Char × List Char) :=
  Option.map fun (cs, rest) => (c :: cs, rest)

/-- Reads up to the closing double quote. -/
def basicBody (s : List Char) : Option (List Char × List Char) :=
  match s with
  | [] => none
  | '"' :: rest => some ([], rest)
  | '\\' :: rest =>
    match _h : escape? rest with
    | some (c, rest) => before c (basicBody rest)
    | none => none
  | c :: rest => if isTextChar c then before c (basicBody rest) else none
termination_by s.length
decreasing_by
  · exact Nat.lt_succ_of_lt (length_escape_lt _h)
  · exact Nat.lt_succ_self _

/-- Reads up to the tripled closing double quotes. -/
def basicLines (s : List Char) : Option (List Char × List Char) :=
  match s with
  | [] => none
  | '"' :: '"' :: '"' :: '"' :: '"' :: rest => some (['"', '"'], rest)
  | '"' :: '"' :: '"' :: '"' :: rest => some (['"'], rest)
  | '"' :: '"' :: '"' :: rest => some ([], rest)
  | '"' :: rest => before '"' (basicLines rest)
  | '\\' :: rest =>
    match _h : continuation? rest with
    | some rest => basicLines rest
    | none =>
      match _h : escape? rest with
      | some (c, rest) => before c (basicLines rest)
      | none => none
  | c :: rest =>
    if isTextChar c then before c (basicLines rest)
    else match _h : lineBreak? (c :: rest) with
      | some rest => before '\n' (basicLines rest)
      | none => none
termination_by s.length
decreasing_by
  · exact Nat.lt_succ_self _
  · exact Nat.lt_succ_of_lt (length_continuation_lt _h)
  · exact Nat.lt_succ_of_lt (length_escape_lt _h)
  · exact Nat.lt_succ_self _
  · exact length_lineBreak_lt _h

/-- Reads up to the closing single quote. -/
def literalBody : List Char → Option (List Char × List Char)
  | [] => none
  | '\'' :: rest => some ([], rest)
  | c :: rest => if isTextChar c then before c (literalBody rest) else none

/-- Reads up to the tripled closing single quotes. -/
def literalLines : List Char → Option (List Char × List Char)
  | [] => none
  | '\'' :: '\'' :: '\'' :: '\'' :: '\'' :: rest => some (['\'', '\''], rest)
  | '\'' :: '\'' :: '\'' :: '\'' :: rest => some (['\''], rest)
  | '\'' :: '\'' :: '\'' :: rest => some ([], rest)
  | '\'' :: rest => before '\'' (literalLines rest)
  | '\n' :: rest => before '\n' (literalLines rest)
  | '\r' :: '\n' :: rest => before '\n' (literalLines rest)
  | c :: rest => if isTextChar c then before c (literalLines rest) else none

/-- Reads a string of any kind. -/
def readString? (s : List Char) : Option (String × List Char) :=
  let chars := match s with
    | '"' :: '"' :: '"' :: rest => basicLines (skipLineBreak rest)
    | '"' :: rest => basicBody rest
    | '\'' :: '\'' :: '\'' :: rest => literalLines (skipLineBreak rest)
    | '\'' :: rest => literalBody rest
    | _ => none
  chars.map fun (cs, rest) => (String.ofList cs, rest)

end PeerMessaging.Toml
