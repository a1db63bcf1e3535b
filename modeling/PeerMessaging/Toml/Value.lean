/-!
# TOML values

The values of a TOML document. A table remembers how it came to be, because that decides
whether a later line may add to it: a table under a header or between braces is complete
where it stands, one that only a longer header implies may still get a header of its own,
and one that a dotted key made may be added to by dotted keys only. An array between
brackets is complete, while one of tables under double headers grows.
-/

namespace PeerMessaging.Toml

/-- How a table came to be. -/
inductive Origin where
  | header
  | implied
  | dotted
  | braces
  deriving DecidableEq

/-- A value. Of a number with a fraction and of a moment only the text is kept. -/
inductive Value where
  | string (s : String)
  | integer (n : Int)
  | float (text : String)
  | boolean (b : Bool)
  | moment (text : String)
  | array (complete : Bool) (items : List Value)
  | table (origin : Origin) (entries : List (String × Value))

/-- The entries of a table in order. -/
abbrev Entries := List (String × Value)

namespace Entries

/-- The value of a key. -/
def get? (es : Entries) (key : String) : Option Value := es.lookup key

/-- Puts another value in the place of a key's first one. -/
def set (es : Entries) (key : String) (v : Value) : Entries :=
  match es with
  | [] => []
  | (k, old) :: rest => if k = key then (k, v) :: rest else (k, old) :: set rest key v

end Entries

/-- Changes the entries of the table at a path, making the tables that are missing. A
growing array stands for its last table. A path of dotted keys may not pass through a table
that has a header. -/
def modifyAt (dotted : Bool) (f : Origin → Entries → Option Entries) :
    List String → Origin → Entries → Option Entries
  | [], origin, es => f origin es
  | key :: path, _, es =>
    match es.get? key with
    | none =>
      let origin := if dotted then Origin.dotted else .implied
      match modifyAt dotted f path origin [] with
      | none => none
      | some inner => some (es ++ [(key, .table origin inner)])
    | some (.table origin inner) =>
      if origin = .braces ∨ (dotted ∧ origin = .header) then none
      else match modifyAt dotted f path origin inner with
        | none => none
        | some inner => some (es.set key (.table origin inner))
    | some (.array false items) =>
      match items.getLast? with
      | some (.table origin inner) =>
        match modifyAt dotted f path origin inner with
        | none => none
        | some inner => some (es.set key (.array false (items.dropLast ++ [.table origin inner])))
      | _ => none
    | some _ => none

/-- Adds a value under a key that is new. -/
def addNew (key : String) (v : Value) (es : Entries) : Option Entries :=
  match es.get? key with
  | none => some (es ++ [(key, v)])
  | some _ => none

/-- Adds a value under a dotted key. The table that gets it is the one at hand or was made
by dotted keys. -/
def addDotted (path : List String) (v : Value) (origin : Origin) (es : Entries) :
    Option Entries :=
  match path.getLast? with
  | none => none
  | some key =>
    let change (origin : Origin) (es : Entries) : Option Entries :=
      if 1 < path.length ∧ origin ≠ .dotted then none else addNew key v es
    modifyAt true change path.dropLast origin es

/-- Opens the table of a header, which may only be implied so far. -/
def openTable (key : String) (es : Entries) : Option Entries :=
  match es.get? key with
  | none => some (es ++ [(key, .table .header [])])
  | some (.table .implied inner) => some (es.set key (.table .header inner))
  | some _ => none

/-- Opens the next table of a growing array. -/
def openItem (key : String) (es : Entries) : Option Entries :=
  match es.get? key with
  | none => some (es ++ [(key, .array false [.table .header []])])
  | some (.array false items) => some (es.set key (.array false (items ++ [.table .header []])))
  | some _ => none

/-- Does something to the table of a header and its last key. -/
def atHeader (f : String → Entries → Option Entries) (path : List String) (es : Entries) :
    Option Entries :=
  match path.getLast? with
  | none => none
  | some key => modifyAt false (fun _ es => f key es) path.dropLast .header es

/-- The table between braces with the given bindings. -/
def bracesTable (bindings : List (List String × Value)) : Option Value :=
  (bindings.foldlM (fun es b => addDotted b.1 b.2 .braces es) []).map (Value.table .braces)

end PeerMessaging.Toml
