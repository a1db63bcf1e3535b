import PeerMessaging.Text.Unprintable

/-!
# Quoted text

A text between double quotes, for messages that show a value to a person. A quote and a
backslash get a backslash in front, the common controls have their two-character names, and
every other character without a visible form is given by its code point.
-/

namespace PeerMessaging.Text

/-- The lowercase hexadecimal numeral of a number. -/
def hexNumeral (n : Nat) : List Char :=
  Nat.toDigits 16 n

/-- How one character appears between quotes. -/
def quoteChar (c : Char) : List Char :=
  if c = '"' then ['\\', '"']
  else if c = '\\' then ['\\', '\\']
  else if c = '\n' then ['\\', 'n']
  else if c = '\r' then ['\\', 'r']
  else if c = '\t' then ['\\', 't']
  else if c.toNat = 0 then ['\\', '0']
  else if isUnprintable c then
    ['\\', 'u', '\x7b'] ++ hexNumeral c.toNat ++ ['\x7d']
  else [c]

/-- The text between double quotes, with every special character spelled out. -/
def quote (s : String) : String :=
  String.ofList ('"' :: s.toList.flatMap quoteChar ++ ['"'])

end PeerMessaging.Text
