import BridgeMethods.Files.Tree
import BridgeMethods.Proofs.Files.Path
import BridgeMethods.Proofs.Result
import BridgeMethods.Settings.Discovery

/-!
# The nearest readable settings file decides

Of the directories that are searched, the first one whose settings file can be read decides, whether
its text is accepted or not; those beyond it, and files that are not settings files, do not matter.
Nothing is assumed about files except that reading them is all that happens to them.
-/

namespace BridgeMethods

/-- Reading a file changes nothing, and what is read depends on the state of the files only. -/
def ReadsAs {σ : Type} [FileAccess (StateM σ)]
    (reading : σ → Path → Except FileFault String) : Prop :=
  ∀ path state, (FileAccess.read path : StateM σ _).run state = (reading state path, state)

theorem FileTree.readsAs : ReadsAs FileTree.read := fun _ _ => rfl

/-- A path and the directories above it, one component less for each, as many as a limit admits. -/
structure Path.Ascends (path : Path) (limit : Nat) (directories : List Path) : Prop where
  length : directories.length = min limit (1 + path.components.length)
  first : 0 < limit → directories.head? = some path
  above : ∀ i directory, directories[i]? = some directory →
    directory.components = path.components.take (path.components.length - i) ∧
      directory.isAbsolute = path.isAbsolute

theorem Path.ascends_ancestors (path : Path) (limit : Nat) :
    path.Ascends limit (path.ancestors limit) where
  length := path.length_ancestors limit
  first positive := by
    obtain ⟨smaller, rfl⟩ := Nat.exists_eq_add_one.mpr positive
    rfl
  above _ _ := of_getElem?_ancestors

namespace Settings

/-- The settings that the settings files of some directories decide, from the nearest on, when
files are read in a certain way. -/
inductive Decided (reading : Path → Except FileFault String) (directories : List Path) :
    Settings → Prop
  /-- The first file that can be read is accepted. -/
  | accepted {near far : List Path} {directory : Path} {source : String} {settings : Settings} :
      directories = near ++ directory :: far →
      (∀ nearer ∈ near, ∀ other, reading (nearer.join fileName) ≠ .ok other) →
      reading (directory.join fileName) = .ok source →
      parse source = .ok settings → Decided reading directories settings
  /-- The first file that can be read is not accepted. -/
  | refused {near far : List Path} {directory : Path} {source : String} {error : Error} :
      directories = near ++ directory :: far →
      (∀ nearer ∈ near, ∀ other, reading (nearer.join fileName) ≠ .ok other) →
      reading (directory.join fileName) = .ok source →
      parse source = .error error → Decided reading directories {}
  /-- No file can be read. -/
  | missing :
      (∀ directory ∈ directories, ∀ source, reading (directory.join fileName) ≠ .ok source) →
      Decided reading directories {}

/-- The text of the nearest settings file that can be read. -/
def nearestText? (reading : Path → Except FileFault String) (directories : List Path) :
    Option String :=
  directories.findSome? fun directory => (reading (directory.join fileName)).toOption

variable {reading : Path → Except FileFault String} {directories : List Path}

theorem nearestText?_eq_some_iff {source : String} :
    nearestText? reading directories = some source ↔
      ∃ near directory far, directories = near ++ directory :: far ∧
        (∀ nearer ∈ near, ∀ other, reading (nearer.join fileName) ≠ .ok other) ∧
        reading (directory.join fileName) = .ok source := by
  simp only [nearestText?, List.findSome?_eq_some_iff, Except.toOption_eq_some_iff,
    Except.toOption_eq_none_iff]
  constructor
  · rintro ⟨near, directory, far, split, found, unreadable⟩
    exact ⟨near, directory, far, split, unreadable, found⟩
  · rintro ⟨near, directory, far, split, unreadable, found⟩
    exact ⟨near, directory, far, split, found, unreadable⟩

theorem nearestText?_eq_none_iff :
    nearestText? reading directories = none ↔
      ∀ directory ∈ directories, ∀ source, reading (directory.join fileName) ≠ .ok source := by
  simp only [nearestText?, List.findSome?_eq_none_iff, Except.toOption_eq_none_iff]

theorem decided_iff {settings : Settings} :
    Decided reading directories settings ↔
      settings = (nearestText? reading directories).elim {} ofText := by
  constructor
  · intro decided
    cases decided with
    | accepted split unreadable found parsed =>
        rw [nearestText?_eq_some_iff.mpr ⟨_, _, _, split, unreadable, found⟩]
        simp only [Option.elim_some, ofText, parsed]
    | refused split unreadable found parsed =>
        rw [nearestText?_eq_some_iff.mpr ⟨_, _, _, split, unreadable, found⟩]
        simp only [Option.elim_some, ofText, parsed]
    | missing unreadable =>
        rw [nearestText?_eq_none_iff.mpr unreadable]
        rfl
  · rintro rfl
    cases nearest : nearestText? reading directories with
    | none => exact .missing (nearestText?_eq_none_iff.mp nearest)
    | some source =>
        obtain ⟨near, directory, far, split, unreadable, found⟩ :=
          nearestText?_eq_some_iff.mp nearest
        simp only [Option.elim_some, ofText]
        cases parsed : parse source with
        | ok settings => exact .accepted split unreadable found parsed
        | error error => exact .refused split unreadable found parsed

variable {σ : Type} [FileAccess (StateM σ)] {reads : σ → Path → Except FileFault String}

theorem run_firstReadable? (observes : ReadsAs reads) (paths : List Path) (state : σ) :
    (firstReadable? paths : StateM σ _).run state =
      (paths.findSome? fun path => (reads state path).toOption, state) := by
  induction paths with
  | nil => rfl
  | cons path rest ih =>
      rw [firstReadable?, StateT.run_bind, observes path state, List.findSome?_cons]
      cases reads state path with
      | ok source => rfl
      | error fault => exact ih

theorem run_discover (observes : ReadsAs reads) (start : Path) (state : σ) :
    (discover start : StateM σ _).run state =
      ((nearestText? (reads state) (start.ancestors maxDirectories)).elim {} ofText, state) := by
  rw [discover, StateT.run_bind, run_firstReadable? observes, candidates, List.findSome?_map]
  simp only [nearestText?, Function.comp_def]
  cases (start.ancestors maxDirectories).findSome?
      fun directory => (reads state (directory.join fileName)).toOption with
  | none => rfl
  | some source => rfl

/-- Two ways of reading that give the same texts for the files of some directories, one of which can
be read, give the same nearest text, whatever is beyond them. -/
theorem nearestText?_congr {other : Path → Except FileFault String} {near : List Path}
    (agree : ∀ directory ∈ near, (reading (directory.join fileName)).toOption =
      (other (directory.join fileName)).toOption) {far : List Path}
    (enough : far = [] ∨ ∃ directory ∈ near, ∃ source,
      reading (directory.join fileName) = .ok source) :
    nearestText? reading (near ++ far) = nearestText? other (near ++ far) := by
  have sameNear : nearestText? reading near = nearestText? other near := by
    rw [nearestText?, nearestText?]
    clear enough
    induction near with
    | nil => rfl
    | cons directory near ih =>
        obtain ⟨first, rest⟩ := List.forall_mem_cons.mp agree
        rw [List.findSome?_cons, List.findSome?_cons, first, ih rest]
  have split (reading : Path → Except FileFault String) : nearestText? reading (near ++ far) =
      (nearestText? reading near).or (nearestText? reading far) := List.findSome?_append
  rw [split, split, ← sameNear]
  rcases enough with rfl | ⟨directory, member, source, found⟩
  · rfl
  · cases nearest : nearestText? reading near with
    | none => exact absurd found (nearestText?_eq_none_iff.mp nearest directory member source)
    | some text => rfl

/-- The settings of a directory are decided by the first settings file that can be read in it and
the nine directories above it: they are what this file says, or the defaults if it is not accepted
or if there is no such file.  So files agree on the settings if they agree up to that file. -/
theorem nearest_readable_decides (observes : ReadsAs reads) (start : Path) :
    (∀ limit, start.Ascends limit (start.ancestors limit)) ∧
    (∀ state, ((discover start : StateM σ _).run state).2 = state ∧
      ∀ settings, ((discover start : StateM σ _).run state).1 = settings ↔
        Decided (reads state) (start.ancestors 10) settings) ∧
    ∀ state other near far, start.ancestors 10 = near ++ far →
      (∀ directory ∈ near, (reads state (directory.join fileName)).toOption =
        (reads other (directory.join fileName)).toOption) →
      (far = [] ∨ ∃ directory ∈ near, ∃ source,
        reads state (directory.join fileName) = .ok source) →
      ((discover start : StateM σ _).run state).1 =
        ((discover start : StateM σ _).run other).1 := by
  refine ⟨start.ascends_ancestors, fun state => ?_,
    fun state other near far split agree enough => ?_⟩
  · rw [run_discover observes]
    refine ⟨rfl, fun settings => ?_⟩
    rw [decided_iff]
    exact eq_comm
  · have sameDirectories : start.ancestors maxDirectories = near ++ far := split
    rw [run_discover observes, run_discover observes, sameDirectories,
      nearestText?_congr agree enough]

/-- A directory that holds a settings file, with a directory inside it that holds one which is not
accepted; a third directory inside that one holds a directory in place of a settings file. -/
def nestedSettings (outermost : String) : FileTree :=
  (((((FileTree.empty ["work"]).set ["work", "a"] .directory).set ["work", "a", "b"] .directory).set
    ["work", "a", "b", fileName] .directory).set
    ["work", "a", fileName] (.file (some "[classification]\nsorts = [\"bridge\"]\n"))).set
    ["work", fileName] (.file (some outermost))

theorem nearest_readable_decides_nested :
    ReadsAs FileTree.read ∧
    Path.ancestors 10 ⟨"./a//b/"⟩ = [⟨"./a//b/"⟩, ⟨"./a"⟩, ⟨"."⟩, ⟨""⟩] ∧
    parse "[output]\nuse_color = true\n" = .ok { output? := some { useColor := some true } } ∧
    ((discover ⟨"./a//b/"⟩ : OnTree _).run
      (nestedSettings "[output]\nuse_color = true\n")).1 = {} ∧
    ((discover ⟨"./a//b/"⟩ : OnTree _).run
        (nestedSettings "[output]\nuse_color = true\n")).1 =
      ((discover ⟨"./a//b/"⟩ : OnTree _).run (nestedSettings "")).1 := by
  have climbs : Path.ancestors 10 ⟨"./a//b/"⟩ = [⟨"./a//b/"⟩, ⟨"./a"⟩, ⟨"."⟩, ⟨""⟩] := by
    decide +kernel
  obtain ⟨_, decides, agrees⟩ := nearest_readable_decides FileTree.readsAs ⟨"./a//b/"⟩
  rw [climbs] at decides agrees
  have unreadable (outermost : String) : ((nestedSettings outermost).read
      (Path.join ⟨"./a//b/"⟩ fileName)) = .error .isADirectory := rfl
  have found (outermost : String) : ((nestedSettings outermost).read
      (Path.join ⟨"./a"⟩ fileName)) = .ok "[classification]\nsorts = [\"bridge\"]\n" := rfl
  have refused :
      parse "[classification]\nsorts = [\"bridge\"]\n" = .error (.unknownSort "bridge") := by
    decide +kernel
  refine ⟨FileTree.readsAs, climbs, by decide +kernel, ?_, ?_⟩
  · refine ((decides _).2 _).mpr
      (@Decided.refused _ _ [⟨"./a//b/"⟩] _ ⟨"./a"⟩ _ _ rfl ?_ (found _) refused)
    simp [unreadable]
  · refine agrees _ _ [⟨"./a//b/"⟩, ⟨"./a"⟩] _ rfl ?_ (.inr ⟨_, by simp, _, found _⟩)
    simp [unreadable, found]

end Settings

end BridgeMethods
