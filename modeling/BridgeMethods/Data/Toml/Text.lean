import BridgeMethods.Data.Json.Lexeme

/-!
# Blanks, comments, keys and texts of TOML

The pieces of a TOML text are read from a list of characters; each reader gives what it has read
and the characters that are left, or nothing if the text is malformed.

Control characters other than the tab occur nowhere, and a carriage return only in front of a line
feed.  A text in three quotation marks may span lines: a line break right after the opening marks
is dropped, and a backslash at the end of a line swallows all blanks up to the next character.

The parts of a key are the names of tables inside each other, and at most `maxKeyParts` of them can
be named at once.
-/

namespace BridgeMethods.Data.Toml

/-- A reader of one kind of piece. -/
abbrev Reader (α : Type) := List Char → Option (α × List Char)

/-- White space within a line. -/
def isBlank (c : Char) : Bool := c == ' ' || c == '\t'

/-- A character that may stand in a comment, or in a text as itself. -/
def isPrintable (c : Char) : Bool := (0x20 ≤ c.toNat && c != '\x7f') || c == '\t'

/-- A character of a key without quotation marks. -/
def isBareKey (c : Char) : Bool := c.isAlphanum || c == '_' || c == '-'

/-- What follows the blanks at the start. -/
def skipBlanks (source : List Char) : List Char := source.dropWhile isBlank

/-- What follows a line break at the start, if there is one. -/
def newline? : List Char → Option (List Char)
  | '\n' :: rest => some rest
  | '\r' :: '\n' :: rest => some rest
  | _ => none

/-- What follows the comment at the start; a comment ends before a line break. -/
def skipComment (source : List Char) : List Char :=
  if source.head? = some '#' then source.dropWhile isPrintable else source

/-- What follows the blanks and the comment at the end of a line, the line break included. -/
def endOfLine? (source : List Char) : Option (List Char) :=
  let rest := skipComment (skipBlanks source)
  if rest.isEmpty then some [] else newline? rest

/-- What follows blanks, comments and line breaks, where they may stand between two pieces.  The
budget is the number of line breaks that may be passed. -/
def skipLines (budget : Nat) (source : List Char) : List Char :=
  let rest := skipComment (skipBlanks source)
  match budget with
  | 0 => rest
  | budget + 1 =>
      match newline? rest with
      | some rest => skipLines budget rest
      | none => rest

/-- What follows blanks, comments and line breaks. -/
def skipSpace (source : List Char) : List Char := skipLines source.length source

/-- The value of hexadecimal digits. -/
def hexValue? (digits : List Char) : Option Nat :=
  digits.foldlM (fun value c => (Json.hexDigit? c).map (value * 16 + ·)) 0

/-- The character of a code point, which must not be half of a surrogate pair. -/
def charOfCode? (code : Nat) : Option Char :=
  if h : code.isValidChar then some (Char.ofNatAux code h) else none

/-- The character that a number of hexadecimal digits at the start denote. -/
def readCode (digits : Nat) : Reader Char := fun source => do
  let code := source.take digits
  if code.length < digits then none
  return (← charOfCode? (← hexValue? code), source.drop digits)

/-- The character that follows a backslash, or that the characters after it denote. -/
def readEscape : Reader Char
  | 'b' :: rest => some ('\x08', rest)
  | 't' :: rest => some ('\t', rest)
  | 'n' :: rest => some ('\n', rest)
  | 'f' :: rest => some ('\x0c', rest)
  | 'r' :: rest => some ('\r', rest)
  | 'e' :: rest => some ('\x1b', rest)
  | '"' :: rest => some ('"', rest)
  | '\\' :: rest => some ('\\', rest)
  | 'x' :: rest => readCode 2 rest
  | 'u' :: rest => readCode 4 rest
  | 'U' :: rest => readCode 8 rest
  | _ => none

/-- The rest of a text on one line, after its opening mark.  The budget bounds its length. -/
def readLineText (mark : Char) : Nat → List Char → Reader String
  | 0, _, _ => none
  | _ + 1, _, [] => none
  | budget + 1, passed, c :: rest =>
      if c = mark then some (String.ofList passed.reverse, rest)
      else if c = '\\' && mark = '"' then do
        let (c, rest) ← readEscape rest
        readLineText mark budget (c :: passed) rest
      else if isPrintable c then readLineText mark budget (c :: passed) rest
      else none

/-- What follows blanks and line breaks. -/
def skipBreaks : List Char → List Char
  | '\r' :: '\n' :: rest => skipBreaks rest
  | c :: rest => if isBlank c || c = '\n' then skipBreaks rest else c :: rest
  | [] => []

/-- What follows a backslash at the end of a line: everything but blanks and line breaks. -/
def continueLine? (source : List Char) : Option (List Char) :=
  (newline? (skipBlanks source)).map skipBreaks

/-- The rest of a text that may span lines, after its opening marks.  Of up to five marks in a row
the last three close the text.  The budget bounds its length. -/
def readLongText (mark : Char) : Nat → List Char → Reader String
  | 0, _, _ => none
  | _ + 1, _, [] => none
  | budget + 1, passed, c :: rest =>
      if c = mark then
        let marks := 1 + (rest.takeWhile (· == mark)).length
        if 3 ≤ marks then
          let kept := min (marks - 3) 2
          some (String.ofList (List.replicate kept mark ++ passed).reverse, rest.drop (kept + 2))
        else readLongText mark budget (c :: passed) rest
      else if c = '\\' && mark = '"' then
        match continueLine? rest with
        | some rest => readLongText mark budget passed rest
        | none => do
            let (c, rest) ← readEscape rest
            readLongText mark budget (c :: passed) rest
      else if c = '\r' then do
        let rest ← newline? (c :: rest)
        readLongText mark budget ('\n' :: c :: passed) rest
      else if isPrintable c || c = '\n' then readLongText mark budget (c :: passed) rest
      else none

/-- A text on one line in either kind of marks. -/
def readShort : Reader String
  | '"' :: rest => readLineText '"' (rest.length + 1) [] rest
  | '\'' :: rest => readLineText '\'' (rest.length + 1) [] rest
  | _ => none

/-- A text in either kind of marks, possibly over several lines. -/
def readText : Reader String
  | '"' :: '"' :: '"' :: rest =>
      readLongText '"' (rest.length + 1) [] ((newline? rest).getD rest)
  | '\'' :: '\'' :: '\'' :: rest =>
      readLongText '\'' (rest.length + 1) [] ((newline? rest).getD rest)
  | source => readShort source

/-- One part of a key. -/
def readKeyPart (source : List Char) : Option (String × List Char) :=
  if source.head? = some '"' || source.head? = some '\'' then readShort source
  else
    let bare := source.takeWhile isBareKey
    if bare.isEmpty then none else some (String.ofList bare, source.dropWhile isBareKey)

/-- A key: parts with dots between them, and the blanks after it.  The budget is the number of
parts that it may have. -/
def readKeyParts : Nat → Reader (List String)
  | 0, _ => none
  | budget + 1, source => do
      let (part, rest) ← readKeyPart source
      let rest := skipBlanks rest
      if rest.head? = some '.' then
        let (parts, rest) ← readKeyParts budget (skipBlanks rest.tail)
        return (part :: parts, rest)
      else return ([part], rest)

/-- The greatest number of parts of a key. -/
def maxKeyParts : Nat := 80

/-- A key and the blanks after it. -/
def readKey : Reader (List String) := readKeyParts maxKeyParts

end BridgeMethods.Data.Toml
