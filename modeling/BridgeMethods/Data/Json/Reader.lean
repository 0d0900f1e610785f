import BridgeMethods.Data.Json.Lexeme

/-!
# Reading JSON

The reader goes through the lexemes of a text once and keeps a stack of the lists and tables that
are still open, so that values may nest to any depth.  The whole text has to be one value.
-/

namespace BridgeMethods.Data.Json

/-- A list or a table whose end has not been reached, with its contents so far, latest first. -/
inductive Frame where
  | list (items : List Data)
  /-- An open table and the name of the member whose value is being read. -/
  | table (members : List (Option String × Data)) (name : Option String)

/-- What the reader has just seen, and so what it can go on with. -/
inductive Phase where
  /-- A value has to follow. -/
  | value
  /-- A list has been opened: a value or its end has to follow. -/
  | firstItem
  /-- A table has been opened: a name or its end has to follow. -/
  | firstName
  /-- The name of a further member of a table with these members has to follow. -/
  | name (members : List (Option String × Data))
  /-- The name of a member has been seen: a colon has to follow. -/
  | colon
  /-- A whole value has been seen. -/
  | done (value : Data)

/-- The reader between two lexemes: its phase and the open lists and tables, innermost first. -/
structure Reader where
  phase : Phase
  pending : List Frame

namespace Reader

/-- The reader before the first lexeme. -/
def start : Reader := ⟨.value, []⟩

/-- The step at which a value has to begin. -/
def stepValue (reader : Reader) : Lexeme → Option Reader
  | .word value => some { reader with phase := .done value }
  | .text value => some { reader with phase := .done (.text value) }
  | .openList => some { reader with phase := .firstItem }
  | .openTable => some { reader with phase := .firstName }
  | _ => none

/-- The step at which the name of a member has to begin. -/
def stepName (reader : Reader) (members : List (Option String × Data)) : Lexeme → Option Reader
  | .text name => some ⟨.colon, .table members name :: reader.pending⟩
  | _ => none

/-- The step after a whole value: the next item or member, or the end of a list or table. -/
def stepDone (reader : Reader) (value : Data) (next : Lexeme) : Option Reader :=
  match reader.pending, next with
  | .list items :: outer, .comma => some ⟨.value, .list (value :: items) :: outer⟩
  | .list items :: outer, .closeList => some ⟨.done (.list (value :: items).reverse), outer⟩
  | .table members name :: outer, .comma => some ⟨.name ((name, value) :: members), outer⟩
  | .table members name :: outer, .closeTable =>
      some ⟨.done (.table ((name, value) :: members).reverse), outer⟩
  | _, _ => none

/-- The reader after one more lexeme. -/
def step (reader : Reader) (next : Lexeme) : Option Reader :=
  match reader.phase, next with
  | .value, _ => reader.stepValue next
  | .firstItem, .closeList => some { reader with phase := .done (.list []) }
  | .firstItem, _ => stepValue { reader with pending := .list [] :: reader.pending } next
  | .firstName, .closeTable => some { reader with phase := .done (.table []) }
  | .firstName, _ => reader.stepName [] next
  | .name members, _ => reader.stepName members next
  | .colon, .colon => some { reader with phase := .value }
  | .colon, _ => none
  | .done value, _ => reader.stepDone value next

/-- The value that has been read when the text ends. -/
def finish : Reader → Option Data
  | ⟨.done value, []⟩ => some value
  | _ => none

end Reader

/-- Reads a JSON text. -/
def read (source : String) : Option Data := do
  let reader ← (← lex source).foldlM Reader.step Reader.start
  reader.finish

end BridgeMethods.Data.Json
