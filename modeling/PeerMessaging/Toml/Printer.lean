import PeerMessaging.Toml.QuoteStyle
import PeerMessaging.Toml.Value

/-!
# Writing TOML

A document of sections is written with a header for each, a line for each entry, and an empty
line between two sections. An array of more than one item has a line for each.
-/

namespace PeerMessaging.Toml

/-- The texts one after another with something between two of them. -/
def joined (between : List Char) (texts : List (List Char)) : List Char :=
  between.intercalate texts

mutual

/-- The text of a value. -/
def writeValue : Value → List Char
  | .string s => writeString s.toList
  | .integer n => (toString n).toList
  | .float text => text.toList
  | .boolean b => (if b then "true" else "false").toList
  | .moment text => text.toList
  | .array _ items =>
    match writeItems items with
    | [] => "[]".toList
    | [item] => "[".toList ++ item ++ "]".toList
    | texts =>
      "[\n".toList ++ texts.flatMap (fun t => "    ".toList ++ t ++ ",\n".toList) ++ "]".toList
  | .table _ entries =>
    "\x7b ".toList ++ joined ", ".toList (writeEntries entries) ++ " \x7d".toList

/-- The texts of items. -/
def writeItems : List Value → List (List Char)
  | [] => []
  | v :: rest => writeValue v :: writeItems rest

/-- The texts of entries. -/
def writeEntries : List (String × Value) → List (List Char)
  | [] => []
  | (key, v) :: rest => (key.toList ++ " = ".toList ++ writeValue v) :: writeEntries rest

end

/-- A section with its header. -/
def writeSection (name : String) (entries : Entries) : List Char :=
  ['['] ++ name.toList ++ [']', '\n'] ++ (writeEntries entries).flatMap (· ++ ['\n'])

/-- The text of a document of sections, each with its name and its entries. Names and keys
are such that they need no quotes. -/
def write (sections : List (String × Entries)) : String :=
  String.ofList (joined ['\n'] (sections.map fun (name, es) => writeSection name es))

end PeerMessaging.Toml
