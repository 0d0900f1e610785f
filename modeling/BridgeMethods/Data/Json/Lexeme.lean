import BridgeMethods.Data.Basic

/-!
# Lexemes of JSON

A JSON text is cut into punctuation and scalars.  Words, that is literals and numbers, are maximal
runs of letters, digits, `+`, `-` and `.`: two of them never follow each other without punctuation
between them, so cutting off more than a number can hold refuses nothing that is well formed.

The characters of a text may be written as UTF-16 code units.  A unit that is half of a surrogate
pair counts only together with the other half right after it.
-/

namespace BridgeMethods.Data.Json

/-- A lexeme of JSON. -/
inductive Lexeme where
  | openList
  | closeList
  | openTable
  | closeTable
  | comma
  | colon
  | text (value : Option String)
  /-- A number or one of the words `null`, `true` and `false`. -/
  | word (value : Data)

/-- White space between lexemes. -/
def isSpace (c : Char) : Bool :=
  c == ' ' || c == '\t' || c == '\n' || c == '\r'

/-- A character of a word. -/
def isWordChar (c : Char) : Bool :=
  c.isAlphanum || c == '+' || c == '-' || c == '.'

/-- The value of a hexadecimal digit. -/
def hexDigit? (c : Char) : Option Nat :=
  if '0' ≤ c ∧ c ≤ '9' then some (c.toNat - '0'.toNat)
  else if 'a' ≤ c ∧ c ≤ 'f' then some (c.toNat - 'a'.toNat + 10)
  else if 'A' ≤ c ∧ c ≤ 'F' then some (c.toNat - 'A'.toNat + 10)
  else none

/-- The character that a backslash and a letter stand for. -/
def escaped? : Char → Option Char
  | '"' => some '"'
  | '\\' => some '\\'
  | '/' => some '/'
  | 'b' => some '\x08'
  | 'f' => some '\x0c'
  | 'n' => some '\n'
  | 'r' => some '\r'
  | 't' => some '\t'
  | _ => none

/-- The part of a text that has been passed: its characters, latest first, the first half of a
surrogate pair if that is what comes last, and whether half a pair has been found alone. -/
structure TextState where
  passed : List Char
  half : Option Nat
  broken : Bool

namespace TextState

/-- The state after an opening quotation mark. -/
def start : TextState := ⟨[], none, false⟩

/-- One more character. -/
def push (state : TextState) (c : Char) : TextState :=
  ⟨c :: state.passed, none, state.broken || state.half.isSome⟩

/-- One more UTF-16 code unit. -/
def pushUnit (state : TextState) (unit : Nat) : TextState :=
  if 0xDC00 ≤ unit ∧ unit ≤ 0xDFFF then
    match state.half with
    | some high =>
        ⟨Char.ofNat (0x10000 + (high - 0xD800) * 0x400 + (unit - 0xDC00)) :: state.passed, none,
          state.broken⟩
    | none => { state with broken := true }
  else if 0xD800 ≤ unit ∧ unit ≤ 0xDBFF then
    ⟨state.passed, some unit, state.broken || state.half.isSome⟩
  else state.push (Char.ofNat unit)

/-- The text at the closing quotation mark. -/
def finish (state : TextState) : Option String :=
  if state.broken || state.half.isSome then none else some (String.ofList state.passed.reverse)

end TextState

/-- Whether a word is a number: digits without a superfluous zero in front, then possibly a
fraction and an exponent. -/
def isNumber (word : List Char) : Bool :=
  let unsigned := if word.head? = some '-' then word.tail else word
  let whole := unsigned.takeWhile Char.isDigit
  let rest := unsigned.dropWhile Char.isDigit
  let wholeFits := whole = ['0'] || (!whole.isEmpty && whole.head? ≠ some '0')
  let rest? :=
    if rest.head? = some '.' then
      let fraction := rest.tail.takeWhile Char.isDigit
      if fraction.isEmpty then none else some (rest.tail.dropWhile Char.isDigit)
    else some rest
  let exponentFits (rest : List Char) : Bool :=
    match rest with
    | [] => true
    | mark :: digits =>
        let digits := if digits.head? = some '+' || digits.head? = some '-' then digits.tail
          else digits
        (mark = 'e' || mark = 'E') && !digits.isEmpty && digits.all Char.isDigit
  wholeFits && rest?.any exponentFits

/-- The value of decimal digits. -/
def ofDigits (digits : List Char) : Nat :=
  digits.foldl (fun value c => value * 10 + (c.toNat - '0'.toNat)) 0

/-- The value of a word: a literal, an integer or another number. -/
def ofWord? (word : List Char) : Option Data :=
  if word = "null".toList then some .null
  else if word = "true".toList then some (.bool true)
  else if word = "false".toList then some (.bool false)
  else if isNumber word then
    if word.all Char.isDigit then some (.integer (ofDigits word))
    else if word.tail.all Char.isDigit then some (.integer (-ofDigits word.tail))
    else some (.decimal (String.ofList word))
  else none

/-- The word that has been passed, latest character first, in front of further lexemes. -/
def consWord? (word : List Char) (rest : List Lexeme) : Option (List Lexeme) :=
  if word.isEmpty then some rest
  else (ofWord? word.reverse).map fun value => .word value :: rest

/-- The punctuation mark that a character is. -/
def punctuation? : Char → Option Lexeme
  | '[' => some .openList
  | ']' => some .closeList
  | '\x7b' => some .openTable
  | '\x7d' => some .closeTable
  | ',' => some .comma
  | ':' => some .colon
  | _ => none

/-- Where the reader of lexemes is: in a word, possibly an empty one, or in a text. -/
inductive Place where
  | word (passed : List Char)
  | text (state : TextState)

/-- The lexemes of a text from a place on. -/
def lexFrom : Place → List Char → Option (List Lexeme)
  | .word passed, [] => consWord? passed []
  | .word passed, c :: rest =>
      if isWordChar c then lexFrom (.word (c :: passed)) rest
      else if c = '"' then do consWord? passed (← lexFrom (.text .start) rest)
      else if isSpace c then do consWord? passed (← lexFrom (.word []) rest)
      else do
        let mark ← punctuation? c
        consWord? passed (mark :: (← lexFrom (.word []) rest))
  | .text _, [] => none
  | .text state, '\\' :: 'u' :: a :: b :: c :: d :: rest => do
      let unit := (((← hexDigit? a) * 16 + (← hexDigit? b)) * 16 + (← hexDigit? c)) * 16
        + (← hexDigit? d)
      lexFrom (.text (state.pushUnit unit)) rest
  | .text state, '\\' :: c :: rest => do lexFrom (.text (state.push (← escaped? c))) rest
  | .text state, c :: rest =>
      if c = '"' then do return .text state.finish :: (← lexFrom (.word []) rest)
      else if c = '\\' || c.toNat < 0x20 then none
      else lexFrom (.text (state.push c)) rest

/-- The lexemes of a JSON text. -/
def lex (source : String) : Option (List Lexeme) :=
  lexFrom (.word []) source.toList

end BridgeMethods.Data.Json
