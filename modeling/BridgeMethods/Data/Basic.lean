/-!
# Data trees

Documents and settings are written in JSON or in TOML.  Both notations denote the same trees of
scalars, lists and tables, and everything that reads a document reads it from such a tree.

A table keeps its members in the order in which they are written, repetitions included.  A text is
`none` if it is written with an escape for half of a surrogate pair, so that it denotes no
sequence of characters; such a text may stand where nobody reads it.
-/

namespace BridgeMethods

/-- A tree of scalars, lists and tables. -/
inductive Data where
  | null
  | bool (value : Bool)
  | integer (value : Int)
  /-- A number with a fraction or an exponent, as it is written. -/
  | decimal (literal : String)
  /-- A numeral that has no value, as it is written: it is too large, or it holds something else
  than digits. -/
  | badNumeral (literal : String)
  /-- A date, a time of day or both, as it is written. -/
  | date (literal : String)
  | text (value : Option String)
  | list (items : List Data)
  | table (members : List (Option String × Data))
  deriving Inhabited

namespace Data

/-- The tree of a text. -/
def ofString (value : String) : Data := .text (some value)

/-- The tree of a natural number. -/
def ofNat (value : Nat) : Data := .integer value

/-- The tree of a list of texts. -/
def ofStrings (values : List String) : Data := .list (values.map ofString)

/-- The table of named members. -/
def record (members : List (String × Data)) : Data :=
  .table (members.map fun (name, value) => (some name, value))

/-- The tree of an optional text: nothing is written as null. -/
def ofString? : Option String → Data
  | none => .null
  | some value => .ofString value

/-- The text that a tree consists of. -/
def string? : Data → Option String
  | .text value => value
  | _ => none

/-- The truth value that a tree consists of. -/
def bool? : Data → Option Bool
  | .bool value => some value
  | _ => none

/-- The natural number that a tree consists of. -/
def nat? : Data → Option Nat
  | .integer (.ofNat value) => some value
  | _ => none

/-- The items of a list. -/
def items? : Data → Option (List Data)
  | .list items => some items
  | _ => none

/-- The value of the first member of a name, if the tree is a table that has one. -/
def member? (name : String) : Data → Option Data
  | .table members => (members.find? (·.1 = some name)).map (·.2)
  | _ => none

mutual

/-- Whether every numeral of a tree has a value. -/
def isSound : Data → Bool
  | .badNumeral _ => false
  | .list items => areItemsSound items
  | .table members => areMembersSound members
  | _ => true

/-- Whether every numeral among the items of a list has a value. -/
def areItemsSound : List Data → Bool
  | [] => true
  | item :: rest => isSound item && areItemsSound rest

/-- Whether every numeral among the members of a table has a value. -/
def areMembersSound : List (Option String × Data) → Bool
  | [] => true
  | (_, value) :: rest => isSound value && areMembersSound rest

end

end Data

end BridgeMethods
