import PeerMessaging.Toml.Scalar

/-!
# Reading TOML

A document is a sequence of lines: a binding of a key to a value, the header of a table, the
double header of a table in an array, a comment, or nothing. A key may be dotted. Values are
scalars, arrays between brackets and tables between braces, which may be nested.

Neither nesting nor dotted keys go deeper than 79.
-/

namespace PeerMessaging.Toml

/-- How deep values may be nested, and how many parts a key may have. -/
def depthLimit : Nat := 79

/-! ## Keys -/

/-- A character of a key without quotes. -/
def isBareChar (c : Char) : Bool := c.isAlphanum || c == '-' || c == '_'

/-- Reads one part of a key. -/
def keyPart? (s : List Char) : Option (String × List Char) :=
  match s with
  | '"' :: rest => (basicBody rest).map fun (cs, rest) => (String.ofList cs, rest)
  | '\'' :: rest => (literalBody rest).map fun (cs, rest) => (String.ofList cs, rest)
  | s =>
    let bare := s.takeWhile isBareChar
    if bare.isEmpty then none else some (String.ofList bare, s.dropWhile isBareChar)

/-- Reads a key of at most so many parts, with the blanks around them. -/
def keyPath? : Nat → Scan (List String)
  | 0, _ => none
  | limit + 1, s =>
    match keyPart? (skipBlanks s) with
    | none => none
    | some (part, rest) =>
      match skipBlanks rest with
      | '.' :: rest => (keyPath? limit rest).map fun (path, rest) => (part :: path, rest)
      | rest => some ([part], rest)

/-! ## Values -/

/-- Leaves out blanks, line breaks and comments at the front; the flag says whether a comment
is being left out. -/
def skipFiller : Bool → List Char → List Char
  | false, ' ' :: rest => skipFiller false rest
  | false, '\t' :: rest => skipFiller false rest
  | false, '#' :: rest => skipFiller true rest
  | _, '\n' :: rest => skipFiller false rest
  | _, '\r' :: '\n' :: rest => skipFiller false rest
  | true, c :: rest => if isTextChar c then skipFiller true rest else c :: rest
  | _, s => s

/-- Reads items up to the closing bracket, with commas between them and perhaps one after the
last. There are fewer items than `bound`. -/
def items? (value? : Scan Value) : Nat → Scan (List Value)
  | 0, _ => none
  | bound + 1, s =>
    match skipFiller false s with
    | ']' :: rest => some ([], rest)
    | s =>
      match value? s with
      | none => none
      | some (v, rest) =>
        match skipFiller false rest with
        | ',' :: rest => (items? value? bound rest).map fun (vs, rest) => (v :: vs, rest)
        | ']' :: rest => some ([v], rest)
        | _ => none

/-- Reads a key, an equals sign and a value. -/
def binding? (value? : Scan Value) : Scan (List String × Value) := fun s =>
  match keyPath? depthLimit s with
  | some (path, '=' :: rest) =>
    (value? (skipBlanks rest)).map fun (v, rest) => ((path, v), rest)
  | _ => none

/-- Reads bindings up to the closing brace, with commas between them. There are fewer than
`bound`. -/
def bindings? (value? : Scan Value) : Nat → Scan (List (List String × Value))
  | 0, _ => none
  | bound + 1, s =>
    match binding? value? s with
    | none => none
    | some (b, rest) =>
      match skipBlanks rest with
      | ',' :: rest => (bindings? value? bound rest).map fun (bs, rest) => (b :: bs, rest)
      | '\x7d' :: rest => some ([b], rest)
      | _ => none

/-- Reads what follows an opening brace. -/
def braces? (value? : Scan Value) : Scan Value := fun s =>
  match skipBlanks s with
  | '\x7d' :: rest => some (.table .braces [], rest)
  | s =>
    match bindings? value? (s.length + 1) s with
    | none => none
    | some (bs, rest) => (bracesTable bs).map fun v => (v, rest)

/-- Reads a value that is nested at most so deep. -/
def value? : Nat → Scan Value
  | 0, s => scalar? s
  | depth + 1, s =>
    match s with
    | '[' :: rest =>
      (items? (value? depth) (rest.length + 1) rest).map fun (vs, rest) => (.array true vs, rest)
    | '\x7b' :: rest => braces? (value? depth) rest
    | s => scalar? s

/-! ## Documents -/

/-- What was read of a document: its entries, and the path of the table that the next
bindings go to. -/
structure Draft where
  entries : Entries := []
  place : List String := []

/-- Leaves out a comment at the front, if there is one. -/
def skipComment : List Char → List Char
  | '#' :: rest => rest.dropWhile isTextChar
  | s => s

/-- Takes the end of a line off the front: blanks, perhaps a comment, and a line break unless
the text ends. -/
def lineEnd? (s : List Char) : Option (List Char) :=
  match skipComment (skipBlanks s) with
  | [] => some []
  | s => lineBreak? s

/-- Reads a path between brackets up to the closing ones. -/
def headerPath? (closing : Nat) (s : List Char) : Option (List String × List Char) :=
  match keyPath? depthLimit s with
  | none => none
  | some (path, rest) =>
    if rest.take closing = List.replicate closing ']' then some (path, rest.drop closing)
    else none

/-- Reads a header of a table or, with double brackets, of a table in an array. -/
def header? (d : Draft) (double : Bool) (s : List Char) : Option (Draft × List Char) :=
  match headerPath? (if double then 2 else 1) s with
  | none => none
  | some (path, rest) =>
    (atHeader (if double then openItem else openTable) path d.entries).map fun es =>
      ({ entries := es, place := path }, rest)

/-- Reads a binding into the table at hand. -/
def bind? (d : Draft) (s : List Char) : Option (Draft × List Char) :=
  match binding? (value? depthLimit) s with
  | none => none
  | some ((path, v), rest) =>
    (modifyAt false (addDotted path v) d.place .header d.entries).map fun es =>
      ({ d with entries := es }, rest)

/-- Reads what stands on one line, without its end. -/
def line? (d : Draft) (s : List Char) : Option (Draft × List Char) :=
  match s with
  | '[' :: '[' :: rest => header? d true rest
  | '[' :: rest => header? d false rest
  | '#' :: rest => some (d, '#' :: rest)
  | '\n' :: rest => some (d, '\n' :: rest)
  | '\r' :: rest => some (d, '\r' :: rest)
  | s => bind? d s

/-- Reads lines up to the end of the text. There are fewer than `bound`. -/
def lines? : Nat → Draft → List Char → Option Entries
  | 0, _, _ => none
  | bound + 1, d, s =>
    match skipBlanks s with
    | [] => some d.entries
    | s =>
      match line? d s with
      | none => none
      | some (d, rest) =>
        match lineEnd? rest with
        | none => none
        | some rest => lines? bound d rest

/-- The text without a byte order mark. -/
def skipMark : List Char → List Char
  | '\ufeff' :: rest => rest
  | s => s

/-- The entries of a document. -/
def read? (text : String) : Option Entries :=
  let s := skipMark text.toList
  lines? (s.length + 1) {} s

end PeerMessaging.Toml
