import BridgeMethods.Data.Toml.Scalar
import BridgeMethods.Data.Toml.Table

/-!
# Reading TOML

A TOML text is a sequence of lines: headers, and keys with their values.  Values in brackets and
braces may span lines and nest at most `maxDepth` levels deep.  Within braces a line may also end on
either side of the equality sign.
-/

namespace BridgeMethods.Data.Toml

/-- The deepest nesting of values in brackets and braces. -/
def maxDepth : Nat := 80

section Nested

variable (value : Reader Data)

/-- The items of a list after its opening bracket, up to the closing one.  The budget is the
number of items that may follow. -/
def readItems : Nat → Reader (List Data)
  | 0, _ => none
  | budget + 1, source => do
      let source := skipSpace source
      if source.head? = some ']' then return ([], source.tail)
      let (item, rest) ← value source
      match skipSpace rest with
      | ',' :: rest => do
          let (items, rest) ← readItems budget rest
          return (item :: items, rest)
      | ']' :: rest => return ([item], rest)
      | _ => none

/-- The members of a table after its opening brace, up to the closing one.  The budget is the
number of members that may follow. -/
def readMembers : Nat → Members → Reader Members
  | 0, _, _ => none
  | budget + 1, members, source => do
      let source := skipSpace source
      if source.head? = some '\x7d' then return (members, source.tail)
      let (key, rest) ← readKey source
      let ('=' :: rest) := skipSpace rest | none
      let (item, rest) ← value (skipSpace rest)
      let members ← members.insert item none key
      match skipSpace rest with
      | ',' :: rest => readMembers budget members rest
      | '\x7d' :: rest => return (members, rest)
      | _ => none

end Nested

/-- A value, given the number of levels of brackets and braces that it may have. -/
def readValue : Nat → Reader Data
  | depth, '[' :: rest =>
      match depth with
      | 0 => none
      | depth + 1 => do
          let (items, rest) ← readItems (readValue depth) (rest.length + 1) rest
          return (.list items, rest)
  | depth, '\x7b' :: rest =>
      match depth with
      | 0 => none
      | depth + 1 => do
          let (members, rest) ← readMembers (readValue depth) (rest.length + 1) [] rest
          return (.table (membersToData members), rest)
  | _, source =>
      if source.head? = some '"' || source.head? = some '\'' then do
        let (value, rest) ← readText source
        return (.ofString value, rest)
      else readWord source

/-- The tables of a text up to some line, and the path of the header above that line. -/
structure Document where
  root : Members
  header : List String

namespace Document

/-- The document before the first line. -/
def start : Document := ⟨[], []⟩

/-- A header: the path in brackets.  The table of its last part is defined by `place`. -/
def readHeader (document : Document) (place : String → Members → Option Members)
    (closing : List Char) : Reader Document := fun source => do
  let (path, rest) ← readKey (skipBlanks source)
  if rest.take closing.length ≠ closing then none
  let key ← path.getLast?
  let root ← document.root.modifyAt (place key) path.dropLast
  return (⟨root, path⟩, rest.drop closing.length)

/-- A key with its value. -/
def readEntry (document : Document) : Reader Document := fun source => do
  let (key, rest) ← readKey source
  let ('=' :: rest) := rest | none
  let (value, rest) ← readValue maxDepth (skipBlanks rest)
  let root ← document.root.modifyAt (·.insert value none key) document.header
  return ({ document with root }, rest)

/-- A header, or a key with its value. -/
def readDefinition (document : Document) : Reader Document
  | '[' :: '[' :: rest => document.readHeader Members.openTables [']', ']'] rest
  | '[' :: rest => document.readHeader Members.openTable [']'] rest
  | source => document.readEntry source

/-- All lines of a text.  The budget is the number of definitions that may follow. -/
def readLines : Nat → Document → List Char → Option Document
  | 0, _, _ => none
  | budget + 1, document, source =>
      match skipSpace source with
      | [] => some document
      | source => do
          let (document, rest) ← document.readDefinition source
          readLines budget document (← endOfLine? rest)

end Document

/-- Reads a TOML text, which may start with a byte order mark. -/
def read (source : String) : Option Data := do
  let source := source.toList
  let source := if source.head? = some '\ufeff' then source.tail else source
  let document ← Document.start.readLines (source.length + 1) source
  return .table (membersToData document.root)

end BridgeMethods.Data.Toml
