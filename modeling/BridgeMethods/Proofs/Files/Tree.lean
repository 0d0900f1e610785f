import BridgeMethods.Files.Tree
import BridgeMethods.Proofs.Result
import Mathlib.Data.List.DropRight
import Mathlib.Data.List.Induction

/-!
# Writing a file

A file that is written holds the text afterwards, at the location that its path led to before, and
nothing else has changed.  The path leads to the file also afterwards: the directories on the way
are where they were, since a place that can be written is none of them.
-/

namespace BridgeMethods

/-- A place where a file can be written: that of a file, or of a name that does not exist. -/
inductive Destination.IsFileAt (location : List String) : Destination → Prop
  | missing : IsFileAt location (.missing location)
  | file (text : Option String) : IsFileAt location (.file location text)

namespace FileTree

variable {tree : FileTree}

/-- What is found at a location. -/
def destinationAt (tree : FileTree) (location : List String) : Destination :=
  match tree.lookup? location with
  | none => .missing location
  | some .directory => .directory location
  | some (.file text) => .file location text

theorem lookup?_eq_directory_of_destinationAt {location elsewhere : List String}
    (found : tree.destinationAt location = .directory elsewhere) :
    tree.lookup? location = some .directory := by
  unfold destinationAt at found
  split at found
  · contradiction
  · assumption
  · contradiction

theorem destinationAt_of_isFileAt {location other : List String}
    (isFile : (tree.destinationAt other).IsFileAt location) :
    other = location ∧ tree.lookup? location ≠ some .directory := by
  unfold destinationAt at isFile
  split at isFile
  · rename_i absent
    cases isFile
    exact ⟨rfl, by rw [absent]; nofun⟩
  · contradiction
  · rename_i text present
    cases isFile
    exact ⟨rfl, by rw [present]; nofun⟩

theorem destinationAt_set_self {location : List String} (below : location ≠ []) (text : String) :
    (tree.set location (.file (some text))).destinationAt location =
      .file location (some text) := by
  rw [destinationAt, lookup?_set_self tree _ below]

theorem destinationAt_set_of_ne {location other : List String} (different : other ≠ location)
    (entry : FileEntry) :
    (tree.set location entry).destinationAt other = tree.destinationAt other := by
  rw [destinationAt, lookup?_set_of_ne tree entry different, destinationAt]

/-! ## Following a path -/

/-- A step leads to a directory that does not depend on the tree, or else to what the tree has at
the name that the segment is. -/
theorem follow_cases {place next : Destination} {segment : List Char}
    (followed : tree.follow place segment = .ok next) :
    (∃ directory, place = .directory directory) ∧
    ((∃ elsewhere, next = .directory elsewhere ∧
        ∀ other : FileTree, other.follow place segment = .ok next) ∨
      ∃ location, location ≠ [] ∧ next = tree.destinationAt location ∧
        ∀ other : FileTree, other.follow place segment = .ok (other.destinationAt location)) := by
  cases place with
  | missing _ => contradiction
  | file _ _ => contradiction
  | directory directory =>
      refine ⟨⟨directory, rfl⟩, ?_⟩
      simp only [follow] at followed ⊢
      split_ifs at followed ⊢ with here up tooLong
      · exact .inl ⟨directory, (Except.ok.inj followed).symm, fun _ => followed⟩
      · exact .inl ⟨directory.dropLast, (Except.ok.inj followed).symm, fun _ => followed⟩
      · have finds (other : FileTree) (location : List String) :
            (match other.lookup? location with
              | none => .ok (.missing location)
              | some .directory => .ok (.directory location)
              | some (.file text) => .ok (.file location text) : Except FileFault Destination) =
              .ok (other.destinationAt location) := by
          rw [destinationAt]
          cases other.lookup? location with
          | none => rfl
          | some entry => cases entry <;> rfl
        refine .inr ⟨directory ++ [String.ofList segment], by simp, ?_, fun other => finds other _⟩
        exact Except.ok.inj (followed.symm.trans (finds tree _))

theorem foldlM_follow_concat_eq_ok_iff {place next : Destination} {front : List (List Char)}
    {last : List Char} :
    (front ++ [last]).foldlM tree.follow place = .ok next ↔
      ∃ directory, front.foldlM tree.follow place = .ok (.directory directory) ∧
        tree.follow (.directory directory) last = .ok next := by
  rw [List.foldlM_append, Except.bind_eq_ok_iff]
  simp only [List.foldlM_cons, List.foldlM_nil, bind_pure]
  constructor
  · rintro ⟨reached, run, followed⟩
    obtain ⟨⟨directory, rfl⟩, _⟩ := follow_cases followed
    exact ⟨directory, run, followed⟩
  · rintro ⟨directory, run, followed⟩
    exact ⟨_, run, followed⟩

variable {location : List String} {origin : Destination}

/-- The way to a directory stays when something else than a directory gets another entry. -/
theorem foldlM_follow_set_of_directory (noDirectory : tree.lookup? location ≠ some .directory)
    (entry : FileEntry) {segments : List (List Char)} {directory : List String}
    (run : segments.foldlM tree.follow origin = .ok (.directory directory)) :
    segments.foldlM (tree.set location entry).follow origin = .ok (.directory directory) := by
  induction segments using List.reverseRecOn generalizing directory with
  | nil => exact run
  | append_singleton front last ih =>
      obtain ⟨before, run, followed⟩ := foldlM_follow_concat_eq_ok_iff.mp run
      refine foldlM_follow_concat_eq_ok_iff.mpr ⟨before, ih run, ?_⟩
      rcases (follow_cases followed).2 with ⟨_, _, anywhere⟩ | ⟨named, _, found, anywhere⟩
      · exact anywhere _
      · have different : named ≠ location := by
          rintro rfl
          exact noDirectory (lookup?_eq_directory_of_destinationAt found.symm)
        rw [anywhere, destinationAt_set_of_ne different, ← found]

/-- A path that leads to a place where a file can be written leads to the file when there is one,
since the place is none of the directories on the way. -/
theorem foldlM_follow_set {segments : List (List Char)} {next : Destination} {start : List String}
    (run : segments.foldlM tree.follow (.directory start) = .ok next)
    (isFile : next.IsFileAt location) (text : String) :
    location ≠ [] ∧ segments.foldlM (tree.set location (.file (some text))).follow
      (.directory start) = .ok (.file location (some text)) := by
  cases segments using List.reverseRecOn with
  | nil =>
      cases run
      contradiction
  | append_singleton front last =>
      obtain ⟨directory, way, followed⟩ := foldlM_follow_concat_eq_ok_iff.mp run
      rcases (follow_cases followed).2 with ⟨_, rfl, _⟩ | ⟨named, below, rfl, anywhere⟩
      · contradiction
      · obtain ⟨rfl, noDirectory⟩ := destinationAt_of_isFileAt isFile
        refine ⟨below, foldlM_follow_concat_eq_ok_iff.mpr ⟨directory, ?_, ?_⟩⟩
        · exact foldlM_follow_set_of_directory noDirectory _ way
        · rw [anywhere, destinationAt_set_self below]

/-! ## Writing at a path -/

variable {path : Path} {text : String}

theorem find_set {next : Destination} (found : tree.find path = .ok next)
    (isFile : next.IsFileAt location) (text : String) :
    location ≠ [] ∧
      (tree.set location (.file (some text))).find path = .ok (.file location (some text)) := by
  simp only [find, followAll] at found ⊢
  split_ifs at found ⊢
  exact foldlM_follow_set found isFile text

/-- What can be written is what the path leads to. -/
theorem exists_of_writeLocation (written : tree.writeLocation path = .ok location) :
    ∃ next, tree.find path = .ok next ∧ next.IsFileAt location := by
  have stripped : (path.segments.reverse.dropWhile (·.isEmpty)).reverse <+: path.segments :=
    List.rdropWhile_prefix _ _
  rw [writeLocation] at written
  by_cases slash : (path.segments.reverse.dropWhile (·.isEmpty)).reverse.length <
      path.segments.length
  · -- With a slash at its end, the path is that of a directory.
    simp only [if_pos slash] at written
    obtain ⟨_, _, thrown⟩ := Except.bind_eq_ok_iff.mp written
    contradiction
  · simp only [if_neg slash] at written
    rw [stripped.eq_of_length_le (not_lt.mp slash)] at written
    obtain ⟨next, found, written⟩ := Except.bind_eq_ok_iff.mp written
    refine ⟨next, found, ?_⟩
    cases next with
    | directory _ => contradiction
    | missing _ =>
        cases written
        exact .missing
    | file _ text =>
        cases written
        exact .file text

/-- A file system after a text has been written at a path: the file that the path leads to holds the
text, and nothing else has changed. -/
structure Written (before : FileTree) (path : Path) (text : String) (after : FileTree) : Prop where
  /-- The path led to a file, or to a name that did not exist; the file there has the text now. -/
  changes : ∃ location next, before.find path = .ok next ∧ next.IsFileAt location ∧
    after.lookup? location = some (.file (some text)) ∧
    ∀ other, other ≠ location → after.lookup? other = before.lookup? other
  content : after.read path = .ok text
  workingLocation : after.workingLocation = before.workingLocation

theorem written_of_write {after : FileTree} (wrote : tree.write path text = .ok after) :
    tree.Written path text after := by
  obtain ⟨location, writable, changed⟩ := Except.bind_eq_ok_iff.mp wrote
  cases changed
  obtain ⟨next, found, isFile⟩ := exists_of_writeLocation writable
  obtain ⟨below, foundAfter⟩ := find_set found isFile text
  refine ⟨⟨location, next, found, isFile, lookup?_set_self tree _ below, fun other different =>
    lookup?_set_of_ne tree _ different⟩, ?_, rfl⟩
  rw [read, foundAfter]
  rfl

end FileTree

end BridgeMethods
