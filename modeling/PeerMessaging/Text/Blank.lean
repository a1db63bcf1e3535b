/-!
# Blank characters

The characters that count as blank when a text is trimmed: the White_Space property.

Main statements: every character that is white space among the first 128 is blank, and
trimming a text that neither begins nor ends with a blank changes nothing.
-/

namespace PeerMessaging.Text

/-- The White_Space property of a character. -/
def isBlank (c : Char) : Bool :=
  let n := c.toNat
  (9 ≤ n && n ≤ 13) || n == 0x20 || n == 0x85 || n == 0xA0 || n == 0x1680
    || (0x2000 ≤ n && n ≤ 0x200A) || n == 0x2028 || n == 0x2029 || n == 0x202F
    || n == 0x205F || n == 0x3000

/-- Every white space of the plain alphabet is blank. -/
theorem isBlank_of_isWhitespace {c : Char} (h : c.isWhitespace) : isBlank c := by
  simp only [Char.isWhitespace, Bool.or_eq_true, decide_eq_true_eq] at h
  rcases h with ((rfl | rfl) | rfl) | rfl <;> decide

/-- The characters without the blanks at either end. -/
def trimChars (s : List Char) : List Char :=
  ((s.dropWhile isBlank).reverse.dropWhile isBlank).reverse

/-- The text without the blanks at either end. -/
def trim (s : String) : String :=
  String.ofList (trimChars s.toList)

/-- A text whose first and last characters are not blank is trimmed already. -/
theorem trimChars_eq_self {s : List Char} (head : s.head?.all (!isBlank ·))
    (last : s.getLast?.all (!isBlank ·)) : trimChars s = s := by
  have keep : ∀ t : List Char, t.head?.all (!isBlank ·) → t.dropWhile isBlank = t := by
    intro t ht
    cases t with
    | nil => rfl
    | cons c r => simp_all [List.dropWhile]
  rw [trimChars, keep s head, keep s.reverse (by simpa using last), List.reverse_reverse]

end PeerMessaging.Text
