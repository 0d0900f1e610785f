/-!
# Paths

A path is a text in which slashes separate the names of directories.  It is kept as it is written;
its components are what is left when repeated slashes, a slash at the end and dots that stand for
the current directory are ignored.  Only a dot at the very start of a relative path counts.
-/

namespace BridgeMethods

/-- A path as it is written. -/
structure Path where
  text : String
  deriving DecidableEq, Repr

/-- The characters between the slashes of a text. -/
def splitSlashes : List Char → List (List Char)
  | [] => [[]]
  | '/' :: rest => [] :: splitSlashes rest
  | c :: rest =>
      match splitSlashes rest with
      | [] => [[c]]
      | segment :: segments => (c :: segment) :: segments

/-- The text of segments with slashes between them. -/
def joinSlashes : List (List Char) → List Char
  | [] => []
  | [segment] => segment
  | segment :: rest => segment ++ '/' :: joinSlashes rest

namespace Path

/-- Whether a path starts at the root directory. -/
def isAbsolute (path : Path) : Bool := path.text.toList.head? = some '/'

/-- The texts between the slashes, the one in front of the root directory excepted. -/
def segments (path : Path) : List (List Char) :=
  if path.isAbsolute then splitSlashes path.text.toList.tail else splitSlashes path.text.toList

/-- Whether a segment names a directory or a file. -/
def isName (segment : List Char) : Bool := !segment.isEmpty && segment ≠ ['.']

/-- Whether a path starts with a dot that counts as a component. -/
def hasLeadingDot (path : Path) : Bool := !path.isAbsolute && path.segments.head? = some ['.']

/-- The segments after a dot at the start. -/
def body (path : Path) : List (List Char) :=
  if path.hasLeadingDot then path.segments.tail else path.segments

/-- The components of a path, the root directory not included. -/
def components (path : Path) : List (List Char) :=
  (if path.hasLeadingDot then [['.']] else []) ++ path.body.filter isName

/-- The segments up to the last one that is a name. -/
def trimEnd (segments : List (List Char)) : List (List Char) :=
  (segments.reverse.dropWhile (!isName ·)).reverse

/-- The path whose segments are a dot at the start, if there was one, and others after it. -/
def withBody (path : Path) (body : List (List Char)) : Path :=
  let segments := (if path.hasLeadingDot then [['.']] else []) ++ body
  ⟨String.ofList (if path.isAbsolute then '/' :: joinSlashes segments else joinSlashes segments)⟩

/-- The path without its last component.  The root directory and the empty path have no parent. -/
def parent? (path : Path) : Option Path :=
  match trimEnd path.body with
  | [] => if path.hasLeadingDot then some ⟨""⟩ else none
  | segments => some (path.withBody (trimEnd segments.dropLast))

/-- A path and its parents, as many as a limit admits. -/
def ancestors : Nat → Path → List Path
  | 0, _ => []
  | limit + 1, path =>
      path :: match path.parent? with
        | some parent => ancestors limit parent
        | none => []

/-- The path of a name within a directory. -/
def join (directory : Path) (name : String) : Path :=
  if directory.text.isEmpty || directory.text.toList.getLast? = some '/' then
    ⟨directory.text ++ name⟩
  else ⟨directory.text ++ "/" ++ name⟩

/-- The part of the last name after its last dot.  A dot at the start of the name does not count,
and a path that ends with two dots has no last name. -/
def extension? (path : Path) : Option String := do
  let name ← (path.body.filter isName).getLast?
  if name = ['.', '.'] then none
  let after := (name.reverse.takeWhile (· ≠ '.')).reverse
  let before := name.reverse.dropWhile (· ≠ '.')
  if before.length < 2 then none
  return String.ofList after

end Path

end BridgeMethods
