import BridgeMethods.CommandLine.Outcome
import BridgeMethods.Proofs.Command.Effects

/-!
# File systems are trees

Whatever a file system holds is in a directory.  The file system that holds nothing but the way to
the working directory is such a tree, and nothing that is done to files and directories makes it
another thing: not the creation of directories, not the writing of a file, and so no run of the
program.

A path leads to a place in a directory, be it empty or not, since it is followed from a directory on
and a step up leads to a directory again.
-/

namespace BridgeMethods

namespace FileTree

/-- Whatever is found below the root is in a directory, and the working directory is one. -/
structure Nested (tree : FileTree) : Prop where
  parent : ∀ location name entry, tree.lookup? (location ++ [name]) = some entry →
    tree.lookup? location = some .directory
  working : tree.lookup? tree.workingLocation = some .directory

/-- A place that a path can lead to. -/
inductive IsPlace (tree : FileTree) : Destination → Prop
  | directory {location : List String} :
      tree.lookup? location = some .directory → IsPlace tree (.directory location)
  | file {location : List String} {name : String} {text : Option String} :
      tree.lookup? location = some .directory →
      tree.lookup? (location ++ [name]) = some (.file text) →
      IsPlace tree (.file (location ++ [name]) text)
  | missing {location : List String} {name : String} :
      tree.lookup? location = some .directory → tree.lookup? (location ++ [name]) = none →
      IsPlace tree (.missing (location ++ [name]))

theorem lookup?_root (tree : FileTree) : tree.lookup? [] = some .directory :=
  rfl

/-- The first file system has the directories on the way to the working directory. -/
theorem lookup?_empty_eq_some_iff {workingLocation location : List String} {entry : FileEntry} :
    (empty workingLocation).lookup? location = some entry ↔
      location <+: workingLocation ∧ entry = .directory := by
  have sound {entry : FileEntry} (found : (empty workingLocation).lookup? location = some entry) :
      location <+: workingLocation ∧ entry = .directory := by
    rw [lookup?] at found
    split_ifs at found with isRoot
    · rw [List.isEmpty_iff] at isRoot
      exact ⟨isRoot ▸ List.nil_prefix, (Option.some.inj found).symm⟩
    · obtain ⟨before, after, split, _⟩ := List.lookup_eq_some_iff.mp found
      have member : (location, entry) ∈ (empty workingLocation).entries := by simp [split]
      obtain ⟨depth, _, same⟩ := List.mem_map.mp member
      obtain ⟨rfl, rfl⟩ := Prod.mk.inj same
      exact ⟨List.take_prefix _ _, rfl⟩
  refine ⟨sound, ?_⟩
  rintro ⟨onTheWay, rfl⟩
  have known : ((empty workingLocation).lookup? location).isSome = true := by
    rw [lookup?]
    split_ifs with isRoot
    · rfl
    · have positive : 0 < location.length := by
        rwa [List.length_pos_iff, Ne, ← List.isEmpty_iff]
      have depth_eq : location.length - 1 + 1 = location.length := Nat.sub_add_cancel positive
      have inRange : location.length - 1 < workingLocation.length := by
        have bound := onTheWay.length_le
        omega
      refine List.lookup_isSome_iff.mpr ⟨(location, .directory), List.mem_map.mpr
        ⟨location.length - 1, List.mem_range.mpr inRange, ?_⟩, beq_self_eq_true location⟩
      rw [depth_eq, ← List.prefix_iff_eq_take.mp onTheWay]
  obtain ⟨entry, found⟩ := Option.isSome_iff_exists.mp known
  rw [found, (sound found).2]

theorem nested_empty (workingLocation : List String) : (empty workingLocation).Nested where
  parent location name entry found := by
    have below := (lookup?_empty_eq_some_iff.mp found).1
    exact lookup?_empty_eq_some_iff.mpr ⟨(List.prefix_append location [name]).trans below, rfl⟩
  working := lookup?_empty_eq_some_iff.mpr ⟨List.prefix_rfl, rfl⟩

namespace Nested

variable {tree after : FileTree} {location : List String} {name : String} {place next : Destination}

/-! ## Following a path -/

theorem isPlace_follow (nested : tree.Nested) (isPlace : tree.IsPlace place)
    {segment : List Char} (followed : tree.follow place segment = .ok next) :
    tree.IsPlace next := by
  cases isPlace with
  | file => contradiction
  | missing => contradiction
  | @directory location isDirectory =>
      simp only [follow] at followed
      split_ifs at followed with here up tooLong
      · cases followed
        exact .directory isDirectory
      · cases followed
        refine .directory ?_
        induction location using List.reverseRecOn with
        | nil => exact isDirectory
        | append_singleton above name =>
            rw [List.dropLast_concat]
            exact nested.parent above name _ isDirectory
      · split at followed <;> cases followed
        · exact .missing isDirectory ‹_›
        · exact .directory ‹_›
        · exact .file isDirectory ‹_›

theorem isPlace_start (nested : tree.Nested) (path : Path) :
    tree.IsPlace (.directory (tree.start path)) := by
  refine .directory ?_
  rw [start]
  split_ifs
  · exact tree.lookup?_root
  · exact nested.working

theorem isPlace_foldlM_follow (nested : tree.Nested) (isPlace : tree.IsPlace place)
    {segments : List (List Char)} (followed : segments.foldlM tree.follow place = .ok next) :
    tree.IsPlace next := by
  induction segments generalizing place with
  | nil =>
      cases followed
      exact isPlace
  | cons segment rest ih =>
      rw [List.foldlM_cons] at followed
      obtain ⟨reached, first, followed⟩ := Except.bind_eq_ok_iff.mp followed
      exact ih (nested.isPlace_follow isPlace first) followed

theorem isPlace_find (nested : tree.Nested) {path : Path} (found : tree.find path = .ok next) :
    tree.IsPlace next := by
  simp only [find, followAll] at found
  split_ifs at found
  exact nested.isPlace_foldlM_follow (nested.isPlace_start path) found

/-! ## Changing what a place holds -/

/-- A place in a directory can get another entry, as long as it is no directory itself. -/
theorem of_change (nested : tree.Nested) (isDirectory : tree.lookup? location = some .directory)
    (noDirectory : tree.lookup? (location ++ [name]) ≠ some .directory)
    (others : ∀ other, other ≠ location ++ [name] → after.lookup? other = tree.lookup? other)
    (working : after.workingLocation = tree.workingLocation) : after.Nested := by
  have keeps {other : List String} (found : tree.lookup? other = some .directory) :
      after.lookup? other = some .directory := by
    rw [others other (by rintro rfl; exact noDirectory found), found]
  refine ⟨fun other inside entry found => ?_, ?_⟩
  · by_cases same : other ++ [inside] = location ++ [name]
    · rw [(List.append_inj' same rfl).1]
      exact keeps isDirectory
    · rw [others _ same] at found
      exact keeps (nested.parent other inside entry found)
  · rw [working]
    exact keeps nested.working

theorem descend (nested : tree.Nested) (isPlace : tree.IsPlace place) {segment : List Char}
    (descended : FileTree.descend (tree, place) segment = .ok (after, next)) :
    after.Nested ∧ after.IsPlace next := by
  obtain ⟨reached, followed, descended⟩ := Except.bind_eq_ok_iff.mp descended
  cases nested.isPlace_follow isPlace followed with
  | directory isDirectory =>
      cases descended
      exact ⟨nested, .directory isDirectory⟩
  | file => contradiction
  | missing isDirectory absent =>
      cases descended
      refine ⟨nested.of_change isDirectory (by rw [absent]; nofun)
        (fun _ => lookup?_set_of_ne tree .directory) rfl, .directory ?_⟩
      exact lookup?_set_self tree .directory (by simp)

theorem foldlM_descend (nested : tree.Nested) (isPlace : tree.IsPlace place)
    {segments : List (List Char)} {last : FileTree × Destination}
    (run : segments.foldlM FileTree.descend (tree, place) = .ok last) : last.1.Nested := by
  induction segments generalizing tree place with
  | nil =>
      cases run
      exact nested
  | cons segment rest ih =>
      rw [List.foldlM_cons] at run
      obtain ⟨⟨between, next⟩, first, run⟩ := Except.bind_eq_ok_iff.mp run
      obtain ⟨nested, isPlace⟩ := nested.descend isPlace first
      exact ih nested isPlace run

/-- Directories are created one in the other. -/
theorem makeDirectories (nested : tree.Nested) {path : Path}
    (made : tree.makeDirectories path = .ok after) : after.Nested := by
  obtain ⟨last, run, made⟩ := Except.bind_eq_ok_iff.mp made
  cases made
  exact nested.foldlM_descend (nested.isPlace_start path) run

/-- A file is written into a directory. -/
theorem written (nested : tree.Nested) {path : Path} {text : String}
    (written : tree.Written path text after) : after.Nested := by
  obtain ⟨location, next, found, isFile, _, others⟩ := written.changes
  have isPlace := nested.isPlace_find found
  cases isFile with
  | missing =>
      cases isPlace with
      | missing isDirectory absent =>
          exact nested.of_change isDirectory (by rw [absent]; nofun) others written.workingLocation
  | file text =>
      cases isPlace with
      | file isDirectory present =>
          exact nested.of_change isDirectory (by rw [present]; nofun) others written.workingLocation

end Nested

end FileTree

/-! ## Runs of the program -/

variable {tree : FileTree}

theorem ClassifyOptions.nested_run (nested : tree.Nested) (options : ClassifyOptions)
    (onTerminal : Bool) (threads : ThreadStart) :
    ((options.run onTerminal threads : OnTree _).run tree).2.Nested := by
  have leaves := options.leaves_run onTerminal threads tree
  generalize (options.run onTerminal threads : OnTree _).run tree = outcome at leaves
  cases result : outcome.1 with
  | error error => exact leaves.failed error result ▸ nested
  | ok printed =>
      cases output : options.output with
      | none => exact (leaves.printed output).1 ▸ nested
      | some path =>
          obtain ⟨_, text, _, written⟩ := leaves.saved path output printed result
          exact nested.written written

theorem Settings.nested_create (nested : tree.Nested) (directory : Path) (force : Bool) :
    ((Settings.create directory force : OnTree _).run tree).2.Nested := by
  have creates := Settings.creates_create directory force tree
  generalize (Settings.create directory force : OnTree _).run tree = outcome at creates
  cases result : outcome.1 with
  | error error => exact creates.failed error result ▸ nested
  | ok created => exact nested.written (creates.created created result).2

theorem Command.nested_run (nested : tree.Nested) (command : Command) (onTerminal : Bool)
    (threads : ThreadStart) :
    ((command.run onTerminal threads : OnTree _).run tree).2.Nested := by
  cases command with
  | classify options => exact options.nested_run nested onTerminal threads
  | sorts => exact nested
  | init force => exact Settings.nested_create nested ⟨"."⟩ force

/-- Whatever the program is asked to do, it leaves a tree. -/
theorem CommandLine.nested_run (nested : tree.Nested) (arguments : List String) (onTerminal : Bool)
    (threads : ThreadStart) :
    ((CommandLine.run arguments onTerminal threads : OnTree _).run tree).2.Nested := by
  rw [CommandLine.run]
  cases parse arguments with
  | error refusal => exact nested
  | ok commandLine => exact commandLine.command.nested_run nested onTerminal threads

end BridgeMethods
