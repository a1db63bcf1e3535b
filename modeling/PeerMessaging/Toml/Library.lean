import PeerMessaging.Toml.Printer
import PeerMessaging.Toml.Reader

/-!
# TOML libraries

Configurations are printed and parsed by a library, which is a parameter: it prints a document of
sections or says why it cannot, and it parses a text as a table. What it is given and what it
gives are data, in which a table is a list of keys with their data.

`Library.standard` is such a library. It prints as the printer does, except that it refuses
integers that do not fit 64 bits with a sign, and it parses as the reader does.
-/

namespace PeerMessaging.Toml

/-- The data of TOML documents. -/
inductive Datum where
  | string (s : String)
  | integer (n : Int)
  | float (text : String)
  | boolean (b : Bool)
  | moment (text : String)
  | array (items : List Datum)
  | table (entries : List (String × Datum))

/-- The entries of a table in order. -/
abbrev Table := List (String × Datum)

/-- A library that prints and parses TOML. A document is printed as sections under their names, and
a text that is no document is parsed as nothing. -/
structure Library where
  print : List (String × Table) → Except String String
  parse : String → Option Table

/-! ## The standard library -/

mutual

/-- The data of a value that was read. -/
def Value.datum : Value → Datum
  | .string s => .string s
  | .integer n => .integer n
  | .float text => .float text
  | .boolean b => .boolean b
  | .moment text => .moment text
  | .array _ items => .array (dataOf items)
  | .table _ entries => .table (tableOf entries)

/-- The data of values. -/
def dataOf : List Value → List Datum
  | [] => []
  | v :: rest => v.datum :: dataOf rest

/-- The table of entries that were read. -/
def tableOf : List (String × Value) → Table
  | [] => []
  | (key, v) :: rest => (key, v.datum) :: tableOf rest

end

mutual

/-- The value that spells data: an array between brackets, a table between braces. -/
def Datum.value : Datum → Value
  | .string s => .string s
  | .integer n => .integer n
  | .float text => .float text
  | .boolean b => .boolean b
  | .moment text => .moment text
  | .array items => .array true (valuesOf items)
  | .table entries => .table .braces (entriesOf entries)

/-- The values that spell a list of data. -/
def valuesOf : List Datum → List Value
  | [] => []
  | d :: rest => d.value :: valuesOf rest

/-- The entries that spell a table. -/
def entriesOf : Table → Entries
  | [] => []
  | (key, d) :: rest => (key, d.value) :: entriesOf rest

end

mutual

/-- Whether all integers in data fit 64 bits with a sign. -/
def Datum.fits : Datum → Bool
  | .integer n => -2 ^ 63 ≤ n ∧ n < 2 ^ 63
  | .array items => allFit items
  | .table entries => tableFits entries
  | _ => true

/-- Whether all integers in a list of data fit. -/
def allFit : List Datum → Bool
  | [] => true
  | d :: rest => d.fits && allFit rest

/-- Whether all integers in a table fit. -/
def tableFits : Table → Bool
  | [] => true
  | (_, d) :: rest => d.fits && tableFits rest

end

/-- The library of the printer and the reader. -/
def Library.standard : Library where
  print document :=
    if document.all fun s => tableFits s.2 then
      .ok (write (document.map fun s => (s.1, entriesOf s.2)))
    else .error "out-of-range value for u64 type"
  parse text := (read? text).map tableOf

end PeerMessaging.Toml
