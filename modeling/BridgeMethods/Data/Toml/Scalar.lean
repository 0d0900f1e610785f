import BridgeMethods.Data.Toml.Text

/-!
# Numbers, truth values and dates of TOML

A scalar without quotation marks is a word, or several words with blanks between them, which is
how a date and a time of day may be written.  Integers are decimal with a sign, or without one in one
of three other bases; single underscores may stand between digits.  Dates and times are those of the
calendar, with seconds and the offset from universal time left out at will.

Some numerals have no value: integers of more than 128 bits, decimal fractions that exceed the
largest double-precision number, and words that resemble integers but hold something else than
digits.  They may be written, but not used.
-/

namespace BridgeMethods.Data.Toml

/-- The characters that end a word: white space, the start of a comment, marks around values. -/
def wordEnds : List Char :=
  ['=', ',', '[', ']', '\x7b', '\x7d', '#', ' ', '\t', '\r', '\n']

/-- A character of a word. -/
def isWordChar (c : Char) : Bool := !wordEnds.contains c

/-- Whether a word starts here, and not a text or the fraction of a number. -/
def startsWord (source : List Char) : Bool :=
  source.head?.any fun c => isWordChar c && c ≠ '.' && c ≠ '"' && c ≠ '\''

/-- The words at the start with the blanks between them, and what follows.  The budget is the number
of words. -/
def splitWords : Nat → List Char → List Char × List Char
  | 0, source => ([], source)
  | budget + 1, source =>
      let word := source.takeWhile isWordChar
      let rest := source.dropWhile isWordChar
      let blanks := rest.takeWhile isBlank
      let next := skipBlanks rest
      if startsWord next then
        let (words, rest) := splitWords budget next
        (word ++ blanks ++ words, rest)
      else (word, rest)

/-- The digits of a numeral, single underscores between two digits removed. -/
def digits? (isDigit : Char → Bool) : List Char → Option (List Char)
  | [] => none
  | [c] => if isDigit c then some [c] else none
  | c :: '_' :: rest => if isDigit c then (digits? isDigit rest).map (c :: ·) else none
  | c :: rest => if isDigit c then (digits? isDigit rest).map (c :: ·) else none

/-- The digits of a decimal numeral that does not start with a superfluous zero. -/
def wholeDigits? (word : List Char) : Option (List Char) := do
  let digits ← digits? Char.isDigit word
  if 1 < digits.length && digits.head? = some '0' then none else some digits

/-- The value of digits in a base. -/
def valueOf (base : Nat) (digits : List Char) : Nat :=
  digits.foldl (fun value c => value * base + (Json.hexDigit? c).getD 0) 0

/-- A word without its sign, and whether the sign is a minus. -/
def splitSign : List Char → Bool × List Char
  | '-' :: word => (true, word)
  | '+' :: word => (false, word)
  | word => (false, word)

/-- Whether a character is a hexadecimal digit. -/
def isHexDigit (c : Char) : Bool := (Json.hexDigit? c).isSome

/-- The integer that a word denotes. -/
def integer? (word : List Char) : Option Int :=
  match word with
  | '0' :: 'x' :: digits =>
      (digits? isHexDigit digits).map fun ds => (valueOf 16 ds : Int)
  | '0' :: 'o' :: digits =>
      (digits? (fun c => '0' ≤ c && c ≤ '7') digits).map fun ds => (valueOf 8 ds : Int)
  | '0' :: 'b' :: digits =>
      (digits? (fun c => c == '0' || c == '1') digits).map fun ds => (valueOf 2 ds : Int)
  | _ =>
      let (negative, word) := splitSign word
      (wholeDigits? word).map fun ds =>
        if negative then -(valueOf 10 ds : Int) else (valueOf 10 ds : Int)

/-- Whether an integer fits into 128 bits, with a sign if it is negative. -/
def fitsInteger (value : Int) : Bool :=
  -(Nat.pow 2 127 : Int) ≤ value && value < (Nat.pow 2 128 : Int)

/-- Whether there are hexadecimal digits on both sides of every underscore. -/
def underscoresSeparate (word : List Char) : Bool :=
  word.head? ≠ some '_' && word.getLast? ≠ some '_' &&
    (word.zip word.tail).all fun (a, b) =>
      (a ≠ '_' || isHexDigit b) && (b ≠ '_' || isHexDigit a)

/-- Whether a word that need not denote a number counts as an integer: the mark of a base without
digits, or a word whose first digits end at an underscore and do not start with zero, and that has
neither a mark of a decimal fraction nor a space. -/
def resemblesInteger (word : List Char) : Bool :=
  let unsigned := (splitSign word).2
  let rest := unsigned.dropWhile Char.isDigit
  word = ['0', 'x'] || word = ['0', 'o'] || word = ['0', 'b'] ||
    (unsigned.head? ≠ some '0' && rest.head? = some '_' && underscoresSeparate unsigned &&
      !rest.any fun c => c == '.' || c == 'e' || c == 'E' || c == ' ')

/-- Whether the decimal fraction `digits * 10 ^ exponent` is below the numbers that round to
infinity in double precision. -/
def fitsDouble (digits : List Char) (exponent : Int) : Bool :=
  let digits := digits.dropWhile (· == '0')
  let magnitude := digits.length + exponent
  if digits.isEmpty || magnitude < 300 then true
  else if 310 < magnitude then false
  else
    let limit := Nat.pow 2 1024 - Nat.pow 2 970
    let value := valueOf 10 digits
    if 0 ≤ exponent then value * Nat.pow 10 exponent.toNat < limit
    else value < limit * Nat.pow 10 (-exponent).toNat

/-- The digits of a decimal fraction without its sign, and the power of ten that they count: whole
digits are written, then a fraction or an exponent or both. -/
def unsignedDecimal? (word : List Char) : Option (List Char × Int) :=
  let isMark (c : Char) : Bool := c == 'e' || c == 'E'
  let mantissa := word.takeWhile (!isMark ·)
  let tail := word.dropWhile (!isMark ·)
  let whole := mantissa.takeWhile (· != '.')
  let point := mantissa.dropWhile (· != '.')
  let exponent? : Option Int :=
    if tail.isEmpty then some 0
    else
      let (negative, digits) := splitSign tail.tail
      (digits? Char.isDigit digits).map fun ds =>
        if negative then -(valueOf 10 ds : Int) else (valueOf 10 ds : Int)
  let fraction? := if point.isEmpty then some [] else digits? Char.isDigit point.tail
  match wholeDigits? whole, fraction?, exponent? with
  | some whole, some fraction, some exponent =>
      if point.isEmpty && tail.isEmpty then none
      else some (whole ++ fraction, exponent - fraction.length)
  | _, _, _ => none

/-- The value of a word that is a decimal fraction, an infinity or not a number. -/
def decimal? (word : List Char) : Option Data :=
  let literal := String.ofList word
  let unsigned := (splitSign word).2
  if unsigned = "inf".toList || unsigned = "nan".toList then some (.decimal literal)
  else (unsignedDecimal? unsigned).map fun (digits, exponent) =>
    if fitsDouble digits exponent then .decimal literal else .badNumeral literal

/-- A numeral of two digits within bounds, and what follows it. -/
def twoDigits (least greatest : Nat) : Reader Nat
  | a :: b :: rest =>
      let value := valueOf 10 [a, b]
      if a.isDigit && b.isDigit && least ≤ value && value ≤ greatest then some (value, rest)
      else none
  | _ => none

/-- The number of days of a month. -/
def daysInMonth (year month : Nat) : Nat :=
  if month = 2 then
    if (year % 4 = 0 && year % 100 ≠ 0) || year % 400 = 0 then 29 else 28
  else if month = 4 || month = 6 || month = 9 || month = 11 then 30
  else 31

/-- What follows the date at the start of a word. -/
def skipDate? (word : List Char) : Option (List Char) := do
  let year := word.take 4
  if year.length < 4 || !year.all Char.isDigit then none
  let ('-' :: rest) := word.drop 4 | none
  let (month, '-' :: rest) ← twoDigits 1 12 rest | none
  let (_, rest) ← twoDigits 1 (daysInMonth (valueOf 10 year) month) rest
  return rest

/-- What follows the time of day at the start of a word. -/
def skipTime? (word : List Char) : Option (List Char) := do
  let (_, ':' :: rest) ← twoDigits 0 23 word | none
  let (_, rest) ← twoDigits 0 59 rest
  match rest with
  | ':' :: rest => do
      let (_, rest) ← twoDigits 0 60 rest
      match rest with
      | '.' :: fraction =>
          if (fraction.takeWhile Char.isDigit).isEmpty then none
          else return fraction.dropWhile Char.isDigit
      | _ => return rest
  | _ => return rest

/-- Whether a word is an offset from universal time, or empty. -/
def isOffset : List Char → Bool
  | [] => true
  | [c] => c == 'Z' || c == 'z'
  | sign :: rest =>
      (sign == '+' || sign == '-') &&
        match twoDigits 0 23 rest with
        | some (_, ':' :: rest) => (twoDigits 0 59 rest).any (·.2.isEmpty)
        | _ => false

/-- Whether a word is a time of day. -/
def isTime (word : List Char) : Bool := skipTime? word = some []

/-- Whether a word is a date without a time of day. -/
def isDate (word : List Char) : Bool := skipDate? word = some []

/-- Whether a word is a date with a time of day, possibly with an offset. -/
def isDateTime (word : List Char) : Bool :=
  match skipDate? word with
  | some (c :: time) => (c == 'T' || c == 't' || c == ' ') && (skipTime? time).any isOffset
  | _ => false

/-- The value of a word. -/
def ofWord? (word : List Char) : Option Data :=
  let literal := String.ofList word
  if word = "true".toList then some (.bool true)
  else if word = "false".toList then some (.bool false)
  else if isTime word || isDate word || isDateTime word then some (.date literal)
  else match integer? word with
    | some value => some (if fitsInteger value then .integer value else .badNumeral literal)
    | none =>
        match decimal? word with
        | some value => some value
        | none => if resemblesInteger word then some (.badNumeral literal) else none

/-- A scalar without quotation marks. -/
def readWord : Reader Data := fun source => do
  let (word, rest) := splitWords source.length source
  return (← ofWord? word, rest)

end BridgeMethods.Data.Toml
