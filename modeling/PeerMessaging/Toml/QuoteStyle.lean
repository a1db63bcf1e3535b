import PeerMessaging.Toml.Quoted

/-!
# How TOML strings are quoted

Of the four kinds of quotes a string gets the plainest one in which it needs no backslash,
in a fixed order: double quotes on one line, single quotes on one line, tripled double
quotes, tripled single quotes. Tripled quotes may have up to two quotes in a row between
them. A string for which none of the four will do is written with backslashes between double
quotes, which are tripled if it has line breaks.

A tab does not count as something that needs a backslash, though between double quotes it is
written with one.

Main statements: the first style is for the strings in which nothing is special, and single
quotes hold a string only if no character of it is a control character.
-/

namespace PeerMessaging.Toml

/-- The quotes around a string. -/
inductive QuoteStyle where
  | basic
  | literal
  | basicLines
  | literalLines
  deriving DecidableEq

/-- The length of the longest run of a character in a text, if `count` of it stand right
before the text. -/
def longestRun (quote : Char) (count : Nat) : List Char → Nat
  | [] => count
  | c :: rest =>
    if c = quote then longestRun quote (count + 1) rest
    else max count (longestRun quote 0 rest)

/-- A control character that only an escape can stand for. -/
def isControl (c : Char) : Bool := !isTextChar c && c ≠ '\n'

/-- Whether double quotes on one line hold a text without a backslash. -/
def fitsBasic (s : List Char) : Bool :=
  s.all fun c => isTextChar c && c ≠ '"' && c ≠ '\\'

/-- Whether single quotes on one line hold a text. -/
def fitsLiteral (s : List Char) : Bool :=
  s.all fun c => isTextChar c && c ≠ '\''

/-- Whether tripled double quotes hold a text without a backslash. -/
def fitsBasicLines (s : List Char) : Bool :=
  (s.all fun c => !isControl c && c ≠ '\\') && longestRun '"' 0 s ≤ 2

/-- Whether tripled single quotes hold a text. -/
def fitsLiteralLines (s : List Char) : Bool :=
  s.all (!isControl ·) && longestRun '\'' 0 s ≤ 2

/-- The quotes that a text gets. -/
def QuoteStyle.ofText (s : List Char) : QuoteStyle :=
  if fitsBasic s then .basic
  else if fitsLiteral s then .literal
  else if fitsBasicLines s then .basicLines
  else if fitsLiteralLines s then .literalLines
  else if s.contains '\n' then .basicLines
  else .basic

/-- How a character other than a quote is written between double quotes; a line break stays
one if they are tripled. -/
def writeChar (tripled : Bool) (c : Char) : List Char :=
  if c = '\n' then if tripled then ['\n'] else ['\\', 'n']
  else if c = '\x08' then ['\\', 'b']
  else if c = '\t' then ['\\', 't']
  else if c = '\x0c' then ['\\', 'f']
  else if c = '\r' then ['\\', 'r']
  else if c = '\\' then ['\\', '\\']
  else if isTextChar c then [c]
  else
    ['\\', 'u', '0', '0', (Bytes.hexDigit (c.toNat / 16)).toUpper,
      (Bytes.hexDigit (c.toNat % 16)).toUpper]

/-- The inside of double quotes, if `count` quotes stand right before it. A quote needs a
backslash unless they are tripled and it is at most the second in a row. -/
def writeBasic (tripled : Bool) (count : Nat) : List Char → List Char
  | [] => []
  | c :: rest =>
    if c = '"' then
      if tripled && count < 2 then '"' :: writeBasic tripled (count + 1) rest
      else '\\' :: '"' :: writeBasic tripled 0 rest
    else writeChar tripled c ++ writeBasic tripled 0 rest

/-- A text between tripled quotes of a kind; one with line breaks begins on a line of its
own. -/
def tripledText (quote : Char) (s body : List Char) : List Char :=
  [quote, quote, quote] ++ (if s.contains '\n' then ['\n'] else []) ++ body
    ++ [quote, quote, quote]

/-- The text of a string. -/
def writeString (s : List Char) : List Char :=
  match QuoteStyle.ofText s with
  | .basic => ['"'] ++ writeBasic false 0 s ++ ['"']
  | .literal => ['\''] ++ s ++ ['\'']
  | .basicLines => tripledText '"' s (writeBasic true 0 s)
  | .literalLines => tripledText '\'' s s

/-- The style of literal lines is chosen only for text that fits it. -/
theorem fitsLiteralLines_of_ofText {s : List Char} (h : QuoteStyle.ofText s = .literalLines) :
    fitsLiteralLines s := by
  unfold QuoteStyle.ofText at h
  split at h
  · exact nomatch h
  · split at h
    · exact nomatch h
    · split at h
      · exact nomatch h
      · split at h
        · assumption
        · split at h <;> exact nomatch h

/-- The literal style is chosen only for text that fits it. -/
theorem fitsLiteral_of_ofText {s : List Char} (h : QuoteStyle.ofText s = .literal) :
    fitsLiteral s := by
  unfold QuoteStyle.ofText at h
  split at h
  · exact nomatch h
  · split at h
    · assumption
    · repeat' split at h
      all_goals exact nomatch h

end PeerMessaging.Toml
