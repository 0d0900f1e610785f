import BridgeMethods.Text.Alphanumeric

/-!
# Character classes of names and of the space between them

Identifiers in type expressions are runs of alphanumeric characters, `.`, `_` and `$`.  White
space is the Unicode property White_Space: it separates the words of a type expression and is
trimmed from the ends of names that a person types.
-/

namespace BridgeMethods.Text

/-- The code points of the Unicode property White_Space. -/
def whiteSpace : List Nat :=
  [0x09, 0x0A, 0x0B, 0x0C, 0x0D, 0x20, 0x85, 0xA0, 0x1680, 0x2000, 0x2001, 0x2002, 0x2003,
    0x2004, 0x2005, 0x2006, 0x2007, 0x2008, 0x2009, 0x200A, 0x2028, 0x2029, 0x202F, 0x205F,
    0x3000]

/-- Whether a character is white space. -/
def isSpace (c : Char) : Bool :=
  whiteSpace.contains c.toNat

/-- Whether a character may occur in the name of a type or of a type variable. -/
def isIdentifier (c : Char) : Bool :=
  isAlphanumeric c || c == '.' || c == '_' || c == '$'

/-- A text without the white space at its two ends. -/
def trim (text : String) : String :=
  String.ofList (((text.toList.dropWhile isSpace).reverse.dropWhile isSpace).reverse)

/-- A text with the ASCII capitals in lower case and every other character as it is. -/
def lowerAscii (text : String) : String :=
  String.ofList (text.toList.map Char.toLower)

/-- A text padded with spaces on the right to at least `width` characters. -/
def padRight (width : Nat) (text : String) : String :=
  text ++ String.ofList (List.replicate (width - text.length) ' ')

/-- The texts of a list with a separator between neighbours. -/
def joinWith (separator : String) : List String → String
  | [] => ""
  | [text] => text
  | text :: rest => text ++ separator ++ joinWith separator rest

end BridgeMethods.Text
