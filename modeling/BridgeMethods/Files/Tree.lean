import BridgeMethods.Files.Access

/-!
# File trees

The state of a file system as far as commands can see it: directories, and files with their texts.
A path is followed from the root or from the working directory, one segment at a time; every
segment but the last has to lead to a directory.
-/

namespace BridgeMethods

/-- What a location of a file tree holds. -/
inductive FileEntry where
  | directory
  /-- A file, with its text unless its bytes are no text. -/
  | file (text : Option String)
  deriving DecidableEq, Repr

/-- A file system: what is found at each location below the root, a location being the names on
the way from the root, and the location of the working directory. -/
structure FileTree where
  entries : List (List String × FileEntry)
  workingLocation : List String
  deriving DecidableEq, Repr

/-- Where a path leads. -/
inductive Destination where
  | directory (location : List String)
  | file (location : List String) (text : Option String)
  /-- A name that does not exist in a directory that does. -/
  | missing (location : List String)
  deriving DecidableEq, Repr

namespace FileTree

/-- A file system whose only directories are the root and those down to the working directory. -/
def empty (workingLocation : List String) : FileTree where
  entries := (List.range workingLocation.length).map fun depth =>
    (workingLocation.take (depth + 1), .directory)
  workingLocation

/-- What a location holds; the root is always a directory. -/
def lookup? (tree : FileTree) (location : List String) : Option FileEntry :=
  if location.isEmpty then some .directory else tree.entries.lookup location

/-- The same file system with another entry at a location. -/
def set (tree : FileTree) (location : List String) (entry : FileEntry) : FileTree :=
  { tree with entries := (location, entry) :: tree.entries.filter (·.1 ≠ location) }

theorem lookup?_set_self (tree : FileTree) {location : List String} (entry : FileEntry)
    (below : location ≠ []) : lookup? (tree.set location entry) location = some entry := by
  simp [lookup?, set, below]

theorem lookup_filter_of_ne {location other : List String} (different : other ≠ location)
    (entries : List (List String × FileEntry)) :
    (entries.filter (·.1 ≠ location)).lookup other = entries.lookup other := by
  induction entries with
  | nil => rfl
  | cons head rest ih =>
      obtain ⟨key, entry⟩ := head
      by_cases same : key = location
      · subst same
        have unequal : (other == key) = false := by simpa using different
        simpa [List.lookup_cons, unequal] using ih
      · simp only [ne_eq, same, not_false_eq_true, decide_true, List.filter_cons_of_pos,
          List.lookup_cons, ← ih]

/-- A new entry leaves every other location as it was. -/
theorem lookup?_set_of_ne (tree : FileTree) {location other : List String}
    (entry : FileEntry) (different : other ≠ location) :
    lookup? (tree.set location entry) other = lookup? tree other := by
  have unequal : (other == location) = false := by simpa using different
  simp only [lookup?, set, List.lookup_cons, unequal, lookup_filter_of_ne different]

/-- The longest name, in bytes, that a file may have. -/
def maxNameSize : Nat := 255

/-- The longest path, in bytes, that can be followed. -/
def maxPathSize : Nat := 4095

/-- Follows one more segment of a path. -/
def follow (tree : FileTree) (place : Destination) (segment : List Char) :
    Except FileFault Destination :=
  match place with
  | .missing _ => .error .notFound
  | .file _ _ => .error .notADirectory
  | .directory location =>
      if segment.isEmpty || segment = ['.'] then .ok (.directory location)
      else if segment = ['.', '.'] then .ok (.directory location.dropLast)
      else
        let name := String.ofList segment
        if maxNameSize < name.utf8ByteSize then .error .nameTooLong
        else
          let location := location ++ [name]
          match tree.lookup? location with
          | none => .ok (.missing location)
          | some .directory => .ok (.directory location)
          | some (.file text) => .ok (.file location text)

/-- The directory where a path starts: the root or the working directory. -/
def start (tree : FileTree) (path : Path) : List String :=
  if path.isAbsolute then [] else tree.workingLocation

/-- Follows segments from the start of a path. -/
def followAll (tree : FileTree) (path : Path) (segments : List (List Char)) :
    Except FileFault Destination :=
  if path.text.toList.contains '\x00' then .error .nulInName
  else if path.text.isEmpty then .error .notFound
  else if maxPathSize < path.text.utf8ByteSize then .error .nameTooLong
  else segments.foldlM tree.follow (.directory (tree.start path))

/-- Where a path leads. -/
def find (tree : FileTree) (path : Path) : Except FileFault Destination :=
  tree.followAll path path.segments

/-- The text of the file at a path. -/
def read (tree : FileTree) (path : Path) : Except FileFault String := do
  match ← tree.find path with
  | .directory _ => throw .isADirectory
  | .missing _ => throw .notFound
  | .file _ none => throw .notText
  | .file _ (some text) => return text

/-- Whether a path leads to a file or a directory. -/
def pathExists (tree : FileTree) (path : Path) : Bool :=
  match tree.find path with
  | .ok (.directory _) | .ok (.file _ _) => true
  | _ => false

/-- The location of the file that is written at a path.  A path with a slash at its end can only
be that of a directory, whatever the name before the slash, once what comes before that name leads
to a directory. -/
def writeLocation (tree : FileTree) (path : Path) : Except FileFault (List String) := do
  let stripped := (path.segments.reverse.dropWhile (·.isEmpty)).reverse
  if stripped.length < path.segments.length then
    let _ ← tree.followAll path (stripped.dropLast ++ [['.']])
    throw .isADirectory
  match ← tree.followAll path stripped with
  | .directory _ => throw .isADirectory
  | .missing location | .file location _ => return location

/-- The file system after a text has been written at a path. -/
def write (tree : FileTree) (path : Path) (text : String) : Except FileFault FileTree := do
  return tree.set (← tree.writeLocation path) (.file (some text))

/-- Follows one more segment of a path, to a directory that is created unless it exists. -/
def descend : FileTree × Destination → List Char → Except FileFault (FileTree × Destination)
  | (tree, place), segment => do
      match ← tree.follow place segment with
      | .missing location => return (tree.set location .directory, .directory location)
      | .file _ _ => throw .notADirectory
      | .directory location => return (tree, .directory location)

/-- The file system after every directory that a path names has been created, unless it existed. -/
def makeDirectories (tree : FileTree) (path : Path) : Except FileFault FileTree := do
  return (← path.segments.foldlM descend (tree, .directory (tree.start path))).1

/-- The absolute path of a location. -/
def pathOf (location : List String) : Path :=
  if location.isEmpty then ⟨"/"⟩ else ⟨String.join (location.map ("/" ++ ·))⟩

end FileTree

/-- Commands that run on a file tree. -/
abbrev OnTree := StateM FileTree

instance : FileAccess OnTree where
  workingDirectory := do return .ok (FileTree.pathOf (← get).workingLocation)
  read path := do return (← get).read path
  pathExists path := do return (← get).pathExists path
  write path text := do
    match (← get).write path text with
    | .ok tree => do
        set tree
        return .ok ()
    | .error fault => return .error fault

end BridgeMethods
