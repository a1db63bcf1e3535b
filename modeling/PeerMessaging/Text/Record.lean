/-!
# Record text

Values that are shown to a person for inspection share one shape: a record is its name and
its fields between braces, a list stands between brackets, and a tagged value carries its
content between parentheses.
-/

namespace PeerMessaging.Text

/-- The texts one after another, with a comma and a blank between two of them. -/
def commaSeparated (items : List String) : String :=
  String.intercalate ", " items

/-- A list between brackets. -/
def listText (items : List String) : String :=
  "[" ++ commaSeparated items ++ "]"

/-- A record: its name, then its fields in order, each as name and value. -/
def recordText (name : String) (fields : List (String × String)) : String :=
  name ++ " \x7b " ++ commaSeparated (fields.map fun (f, v) => f ++ ": " ++ v) ++ " \x7d"

/-- A tag with its content between parentheses. -/
def taggedText (tag content : String) : String :=
  tag ++ "(" ++ content ++ ")"

/-- A value that may be absent. -/
def optionText : Option String → String
  | none => "None"
  | some v => taggedText "Some" v

/-- A truth value. -/
def boolText (b : Bool) : String :=
  if b then "true" else "false"

end PeerMessaging.Text
