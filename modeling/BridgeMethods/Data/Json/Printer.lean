import BridgeMethods.Data.Basic
import BridgeMethods.Text.CharClass

/-!
# Writing JSON

Two layouts: everything in one line without spaces, and one item or member a line with two spaces
of indentation a level.  Quotation marks, backslashes and control characters are escaped; all other
characters stand for themselves.
-/

namespace BridgeMethods.Data.Json

/-- The lower-case hexadecimal digit of a value below sixteen. -/
def hexDigit (value : Nat) : Char :=
  if value < 10 then Char.ofNat ('0'.toNat + value) else Char.ofNat ('a'.toNat + value - 10)

/-- The written form of a character of a text. -/
def escape (c : Char) : List Char :=
  if c = '"' then ['\\', '"']
  else if c = '\\' then ['\\', '\\']
  else if c = '\x08' then ['\\', 'b']
  else if c = '\x0c' then ['\\', 'f']
  else if c = '\n' then ['\\', 'n']
  else if c = '\r' then ['\\', 'r']
  else if c = '\t' then ['\\', 't']
  else if c.toNat < 0x20 then
    ['\\', 'u', '0', '0', hexDigit (c.toNat / 16), hexDigit (c.toNat % 16)]
  else [c]

/-- A text in quotation marks.  One that denotes no characters is written as half a pair. -/
def quote : Option String → String
  | some value => "\"" ++ String.ofList (value.toList.flatMap escape) ++ "\""
  | none => "\"\\ud800\""

mutual

/-- The written form in one line. -/
def compact : Data → String
  | .null => "null"
  | .bool value => if value then "true" else "false"
  | .integer value => toString value
  | .decimal literal | .badNumeral literal | .date literal => literal
  | .text value => quote value
  | .list items => "[" ++ Text.joinWith "," (compactItems items) ++ "]"
  | .table members => "\x7b" ++ Text.joinWith "," (compactMembers members) ++ "\x7d"

/-- The written forms of the items of a list. -/
def compactItems : List Data → List String
  | [] => []
  | item :: rest => compact item :: compactItems rest

/-- The written forms of the members of a table. -/
def compactMembers : List (Option String × Data) → List String
  | [] => []
  | (name, value) :: rest => (quote name ++ ":" ++ compact value) :: compactMembers rest

end

/-- The start of a line at a level of indentation. -/
def newLine (level : Nat) : String :=
  "\n" ++ String.ofList (List.replicate (2 * level) ' ')

/-- Items in brackets, one a line; brackets alone if there are none. -/
def block (level : Nat) (opening closing : String) (items : List String) : String :=
  if items.isEmpty then opening ++ closing
  else
    opening ++ newLine (level + 1) ++ Text.joinWith ("," ++ newLine (level + 1)) items
      ++ newLine level ++ closing

mutual

/-- The written form with one item or member a line, at a level of indentation. -/
def prettyAt (level : Nat) : Data → String
  | .null => "null"
  | .bool value => if value then "true" else "false"
  | .integer value => toString value
  | .decimal literal | .badNumeral literal | .date literal => literal
  | .text value => quote value
  | .list items => block level "[" "]" (prettyItems (level + 1) items)
  | .table members => block level "\x7b" "\x7d" (prettyMembers (level + 1) members)

/-- The written forms of the items of a list. -/
def prettyItems (level : Nat) : List Data → List String
  | [] => []
  | item :: rest => prettyAt level item :: prettyItems level rest

/-- The written forms of the members of a table. -/
def prettyMembers (level : Nat) : List (Option String × Data) → List String
  | [] => []
  | (name, value) :: rest =>
      (quote name ++ ": " ++ prettyAt level value) :: prettyMembers level rest

end

/-- The written form with one item or member a line. -/
def pretty (value : Data) : String := prettyAt 0 value

end BridgeMethods.Data.Json
