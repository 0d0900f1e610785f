import BridgeMethods.Text.CharClass

/-!
# Lexemes of type expressions

A written type expression is cut into words, which are maximal runs of identifier characters, and
marks, which are the other characters one by one.  White space separates words and is otherwise
dropped.  Each lexeme keeps the offsets at which it starts and stops, counted in characters, so
that a reader can say where an expression goes wrong.
-/

namespace BridgeMethods

/-- A word or a mark of a written type expression. -/
inductive Symbol where
  | word (text : String)
  | mark (character : Char)
  deriving DecidableEq, Repr, Inhabited

/-- A symbol with the offset of its first character and the offset just after its last one. -/
structure Lexeme where
  symbol : Symbol
  start : Nat
  stop : Nat
  deriving DecidableEq, Repr, Inhabited

namespace Lexeme

/-- The word that ends at an offset, given its characters from the last to the first. -/
def ofWord (stop : Nat) : List Char → List Lexeme
  | [] => []
  | word => [⟨.word (String.ofList word.reverse), stop - word.length, stop⟩]

/-- The lexemes of a text that goes on at `offset` after the characters of `word`, which are the
part of a word already passed, the latest first. -/
def scanFrom (offset : Nat) (word : List Char) : List Char → List Lexeme
  | [] => ofWord offset word
  | c :: rest =>
      if Text.isIdentifier c then scanFrom (offset + 1) (c :: word) rest
      else if Text.isSpace c then ofWord offset word ++ scanFrom (offset + 1) [] rest
      else ofWord offset word ++ ⟨.mark c, offset, offset + 1⟩ :: scanFrom (offset + 1) [] rest

/-- The lexemes of a text. -/
def scan (text : String) : List Lexeme :=
  scanFrom 0 [] text.toList

/-- The symbols of a text: what is left of it when white space is dropped and offsets are
forgotten. -/
def symbols (text : String) : List Symbol :=
  (scan text).map (·.symbol)

end Lexeme

end BridgeMethods
