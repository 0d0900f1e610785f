import BridgeMethods.TypeExpr.Basic
import BridgeMethods.TypeExpr.Lexeme

/-!
# Reading type expressions

The reader goes through the lexemes of a signature once, from left to right, and keeps a stack of
the argument lists that are still open.  One lexeme decides one step, so an error depends only on
the part of the text up to the place that it names.

Wildcards are read as type arguments only.  Arguments nest at most `maxNesting` levels deep, and a
signature has at most `maxDimensions` array dimensions in total.
-/

namespace BridgeMethods.TypeExpr

/-- The deepest nesting of types, the outermost one included. -/
def maxNesting : Nat := 64

/-- The largest number of array dimensions of one signature. -/
def maxDimensions : Nat := 255

/-- What is wrong with a written type expression. -/
inductive Fault where
  | expectedName
  | expectedBound
  | expectedMark (character : Char)
  | trailingInput
  | nestingTooDeep
  | tooManyDimensions
  deriving DecidableEq, Repr

/-- The wording of a fault. -/
def Fault.message : Fault → String
  | .expectedName => "expected type name"
  | .expectedBound => "expected 'extends' or 'super' after '?'"
  | .expectedMark character => "expected '" ++ character.toString ++ "'"
  | .trailingInput => "unexpected trailing input"
  | .nestingTooDeep => "type nesting too deep"
  | .tooManyDimensions => "too many array dimensions"

/-- A fault and the offset, in characters, at which it was noticed. -/
structure SyntaxError where
  fault : Fault
  offset : Nat
  deriving DecidableEq, Repr

/-- The wording of a fault together with its place. -/
def SyntaxError.message (error : SyntaxError) : String :=
  error.fault.message ++ " at offset " ++ toString error.offset

/-- How the type that is being read stands in its argument list. -/
inductive Bounding where
  | exactly
  | extending
  | super
  deriving DecidableEq, Repr

/-- The argument that a type makes up when it stands as a bound, or for itself. -/
def Bounding.apply : Bounding → TypeExpr → TypeExpr
  | .exactly, t => t
  | .extending, t => .wildcard (some t) none
  | .super, t => .wildcard none (some t)

/-- An argument list whose closing `>` has not been reached: the generic type that it belongs to,
the arguments before the current one, latest first, and the place of the current one. -/
structure OpenList where
  head : String
  arguments : List TypeExpr
  bounding : Bounding

/-- What the reader has just seen, and so what it can go on with. -/
inductive Phase where
  /-- A type has to follow. -/
  | type
  /-- A type argument has to follow. -/
  | argument
  /-- A `?` has been seen. -/
  | question
  /-- The name of a type has been seen. -/
  | name (text : String)
  /-- A whole type has been seen, array dimensions possibly excepted. -/
  | done (t : TypeExpr)
  /-- The `[` of an array dimension has been seen after a type. -/
  | bracket (component : TypeExpr)

/-- The reader between two lexemes: its phase, the open argument lists, innermost first, and the
number of array dimensions so far. -/
structure Reader where
  phase : Phase
  pending : List OpenList
  dimensions : Nat

namespace Reader

/-- The reader before the first lexeme. -/
def start : Reader := ⟨.type, [], 0⟩

/-- The innermost open list takes an argument, and the next one has to follow. -/
def takeArgument (reader : Reader) (list : OpenList) (outer : List OpenList)
    (argument : TypeExpr) : Reader :=
  { reader with
    phase := .argument
    pending := { list with arguments := argument :: list.arguments, bounding := .exactly } :: outer }

/-- The innermost open list takes its last argument and becomes a generic type. -/
def closeList (reader : Reader) (list : OpenList) (outer : List OpenList)
    (argument : TypeExpr) : Reader :=
  { reader with
    phase := .done (.generic list.head (argument :: list.arguments).reverse)
    pending := outer }

/-- The step after a whole type: another dimension, the next argument or the end of a list. -/
def stepDone (reader : Reader) (t : TypeExpr) (next : Lexeme) : Except SyntaxError Reader :=
  match next.symbol, reader.pending with
  | .mark '[', _ =>
      if reader.dimensions = maxDimensions then .error ⟨.tooManyDimensions, next.start⟩
      else .ok { reader with phase := .bracket t, dimensions := reader.dimensions + 1 }
  | .mark ',', list :: outer => .ok (reader.takeArgument list outer (list.bounding.apply t))
  | .mark '>', list :: outer => .ok (reader.closeList list outer (list.bounding.apply t))
  | _, [] => .error ⟨.trailingInput, next.start⟩
  | _, _ :: _ => .error ⟨.expectedMark '>', next.start⟩

/-- The step after `?`: the end of an unbounded wildcard, or the keyword of a bound. -/
def stepQuestion (reader : Reader) (next : Lexeme) : Except SyntaxError Reader :=
  match next.symbol, reader.pending with
  | .mark ',', list :: outer => .ok (reader.takeArgument list outer (.wildcard none none))
  | .mark '>', list :: outer => .ok (reader.closeList list outer (.wildcard none none))
  | .word text, list :: outer =>
      let bounded (bounding : Bounding) : Except SyntaxError Reader :=
        if maxNesting ≤ reader.pending.length then .error ⟨.nestingTooDeep, next.stop⟩
        else .ok { reader with phase := .type, pending := { list with bounding } :: outer }
      if text = "extends" then bounded .extending
      else if text = "super" then bounded .super
      else .error ⟨.expectedBound, next.stop⟩
  | _, _ => .error ⟨.expectedName, next.start⟩

/-- The reader after one more lexeme. -/
def step (reader : Reader) (next : Lexeme) : Except SyntaxError Reader :=
  match reader.phase, next.symbol with
  | .type, .word text => .ok { reader with phase := .name text }
  | .type, .mark _ => .error ⟨.expectedName, next.start⟩
  | .argument, .mark '?' => .ok { reader with phase := .question }
  | .argument, symbol =>
      if maxNesting ≤ reader.pending.length then .error ⟨.nestingTooDeep, next.start⟩
      else match symbol with
        | .word text => .ok { reader with phase := .name text }
        | .mark _ => .error ⟨.expectedName, next.start⟩
  | .question, _ => reader.stepQuestion next
  | .name head, .mark '<' =>
      .ok { reader with phase := .argument, pending := ⟨head, [], .exactly⟩ :: reader.pending }
  | .name text, _ => reader.stepDone (.named text) next
  | .done t, _ => reader.stepDone t next
  | .bracket component, .mark ']' => .ok { reader with phase := .done (.array component) }
  | .bracket _, _ => .error ⟨.expectedMark ']', next.start⟩

/-- The type that has been read when the text ends at `offset`. -/
def finish (reader : Reader) (offset : Nat) : Except SyntaxError TypeExpr :=
  let complete (t : TypeExpr) : Except SyntaxError TypeExpr :=
    if reader.pending.isEmpty then .ok t else .error ⟨.expectedMark '>', offset⟩
  match reader.phase with
  | .type | .question => .error ⟨.expectedName, offset⟩
  | .argument =>
      if maxNesting ≤ reader.pending.length then .error ⟨.nestingTooDeep, offset⟩
      else .error ⟨.expectedName, offset⟩
  | .name text => complete (.named text)
  | .done t => complete t
  | .bracket _ => .error ⟨.expectedMark ']', offset⟩

end Reader

/-- Reads a type expression.  Every identifier becomes a named type: which of them are type
variables depends on the scope, see `TypeExpr.resolve`. -/
def parse (signature : String) : Except SyntaxError TypeExpr := do
  let reader ← (Lexeme.scan signature).foldlM Reader.step Reader.start
  reader.finish signature.length

end BridgeMethods.TypeExpr
