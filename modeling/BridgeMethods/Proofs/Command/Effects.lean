import BridgeMethods.Command.Classify
import BridgeMethods.Command.Init
import BridgeMethods.Proofs.Files.Tree
import BridgeMethods.Proofs.Settings.Discovery

/-!
# What commands do to files

A classification reads all that it needs before it writes anything, and it writes only when its
report is known.  So a classification that fails changes nothing, and one that succeeds writes the
report on the files as they were, even over a file that it has read.  Opening a file for writing is
all that can fail about writing it.
-/

namespace BridgeMethods

/-! ## Programs that only read -/

section OnlyReads

variable {ε ε' α : Type} {tree : FileTree} {good : α → Prop} {bad : ε → Prop}

/-- A program leaves a file system as it is.  What it succeeds with is that of which one thing
holds, and what it fails with is that of which another one does. -/
def OnlyReads (program : OnTree (Except ε α)) (tree : FileTree) (good : α → Prop)
    (bad : ε → Prop) : Prop :=
  ∃ result, program.run tree = (result, tree) ∧
    (∀ a, result = .ok a ↔ good a) ∧ ∀ e, result = .error e ↔ bad e

/-- A program that reads a file and goes on with its text alone. -/
theorem onlyReads_file (path : Path) (process : String → Except ε α) (refuse : FileFault → ε)
    (tree : FileTree) :
    OnlyReads (do
      match ← (FileAccess.read path : OnTree _) with
      | .ok source => return process source
      | .error fault => return .error (refuse fault)) tree
      (fun a => ∃ source, tree.read path = .ok source ∧ process source = .ok a)
      fun e => (∃ fault, tree.read path = .error fault ∧ refuse fault = e) ∨
        ∃ source, tree.read path = .ok source ∧ process source = .error e := by
  unfold OnlyReads
  rw [StateT.run_bind, FileTree.readsAs path tree]
  cases tree.read path with
  | ok source => exact ⟨process source, rfl, fun a => by simp, fun e => by simp⟩
  | error fault => exact ⟨.error (refuse fault), rfl, fun a => by simp, fun e => by simp⟩

theorem OnlyReads.mapError {program : OnTree (Except ε α)}
    (reads : OnlyReads program tree good bad) (f : ε → ε') :
    OnlyReads (do return (← program).mapError f) tree good
      fun e => ∃ cause, bad cause ∧ f cause = e := by
  obtain ⟨result, run, succeeds, fails⟩ := reads
  refine ⟨result.mapError f, ?_, fun a => Except.mapError_eq_ok_iff.trans (succeeds a), fun e => ?_⟩
  · rw [StateT.run_bind, run]
    rfl
  · rw [Except.mapError_eq_error_iff]
    exact exists_congr fun cause => and_congr_left fun _ => fails cause

/-- What follows a program that changes nothing starts from the same file system. -/
theorem run_bind_of_run {β : Type} {program : OnTree α} {result : α}
    (run : program.run tree = (result, tree)) (next : α → OnTree β) :
    (program >>= next).run tree = (next result).run tree := by
  rw [StateT.run_bind, run]
  rfl

theorem run_write_of_ok {path : Path} {text : String} {after : FileTree}
    (written : tree.write path text = .ok after) :
    (FileAccess.write path text : OnTree _).run tree = (.ok (), after) := by
  simp only [FileAccess.write, StateT.run_bind, StateT.run_get, pure_bind, written]
  rfl

theorem run_write_of_error {path : Path} {text : String} {fault : FileFault}
    (refused : tree.write path text = .error fault) :
    (FileAccess.write path text : OnTree _).run tree = (.error fault, tree) := by
  simp only [FileAccess.write, StateT.run_bind, StateT.run_get, pure_bind, refused]
  rfl

end OnlyReads

namespace ClassifyOptions

variable (options : ClassifyOptions)

/-- The settings that are loaded from files: those of the file that options name, or else those
that are found for the working directory. -/
inductive Loads (tree : FileTree) : Settings → Prop
  | named {path : Path} {source : String} {settings : Settings} :
      options.settingsFile = some path → tree.read path = .ok source →
      Settings.parse source = .ok settings → Loads tree settings
  | found {settings : Settings} :
      options.settingsFile = none →
      Settings.Decided tree.read ((FileTree.pathOf tree.workingLocation).ancestors 10) settings →
      Loads tree settings

/-- Why settings cannot be loaded: the file that options name cannot be read, or what it says is not
accepted. -/
inductive FailsToLoad (tree : FileTree) : CommandError → Prop
  | unreadable {path : Path} {fault : FileFault} :
      options.settingsFile = some path → tree.read path = .error fault →
      FailsToLoad tree (.settings path
        (.fileSystem ("Failed to read config file " ++ path.text) (some path.text) (some fault)))
  | refused {path : Path} {source : String} {cause : Error} :
      options.settingsFile = some path → tree.read path = .ok source →
      Settings.parse source = .error cause → FailsToLoad tree (.settings path cause)

/-- The pool that the hierarchy document in a file defines. -/
inductive Defines (tree : FileTree) : ClassPool → Prop
  | intro {source : String} {document : HierarchyDocument} {pool : ClassPool} :
      tree.read options.path = .ok source →
      HierarchyDocument.ofText options.path source = .ok document →
      ClassPool.ofDefinitions document.classes = .ok pool → Defines tree pool

/-- Why there is no pool: the hierarchy document cannot be read, it is malformed, or its definitions
are not accepted. -/
inductive FailsToDefine (tree : FileTree) : CommandError → Prop
  | unreadable {fault : FileFault} :
      tree.read options.path = .error fault →
      FailsToDefine tree (.hierarchy options.path
        (.fileSystem ("Failed to read hierarchy document " ++ options.path.text)
          (some options.path.text) (some fault)))
  | malformed {source : String} {cause : Error} :
      tree.read options.path = .ok source →
      HierarchyDocument.ofText options.path source = .error cause →
      FailsToDefine tree (.hierarchy options.path cause)
  | refused {source : String} {document : HierarchyDocument} {cause : Error} :
      tree.read options.path = .ok source →
      HierarchyDocument.ofText options.path source = .ok document →
      ClassPool.ofDefinitions document.classes = .error cause →
      FailsToDefine tree (.hierarchy options.path cause)

/-- The text of the reports that are asked for, on the document as it is in a file system. -/
inductive Reports (onTerminal : Bool) (threads : ThreadStart) (tree : FileTree) : String → Prop
  | intro {loaded : Settings} {format : OutputFormat} {pool : ClassPool}
      {reports : List MethodReport} :
      options.Loads tree loaded → (loaded.override options).format options = .ok format →
      options.Defines tree pool →
      pool.classify (loaded.override options).classification (loaded.override options).parallel
        threads = .ok reports →
      Reports onTerminal threads tree
        (format.write ((loaded.override options).useColor options onTerminal) reports)

variable (tree : FileTree)

theorem loadSettings_onlyReads_of_named {path : Path} (given : options.settingsFile = some path) :
    OnlyReads (options.loadSettings : OnTree _) tree (options.Loads tree)
      (options.FailsToLoad tree) := by
  have reads : OnlyReads (Settings.load path) tree _ _ :=
    onlyReads_file path Settings.parse _ tree
  obtain ⟨loaded, run, succeeds, fails⟩ := reads.mapError (CommandError.settings path)
  refine ⟨loaded, ?_, fun settings => (succeeds settings).trans ⟨?_, ?_⟩,
    fun error => (fails error).trans ⟨?_, ?_⟩⟩
  · simpa only [loadSettings, given] using run
  · rintro ⟨source, read, parsed⟩
    exact .named given read parsed
  · intro loads
    cases loads with
    | named named read parsed =>
        obtain rfl := Option.some.inj (given.symm.trans named)
        exact ⟨_, read, parsed⟩
    | found unnamed _ => simp [given] at unnamed
  · rintro ⟨cause, ⟨fault, unread, rfl⟩ | ⟨source, read, refused⟩, rfl⟩
    · exact .unreadable given unread
    · exact .refused given read refused
  · intro failed
    cases failed with
    | unreadable named unread =>
        obtain rfl := Option.some.inj (given.symm.trans named)
        exact ⟨_, .inl ⟨_, unread, rfl⟩, rfl⟩
    | refused named read refused =>
        obtain rfl := Option.some.inj (given.symm.trans named)
        exact ⟨_, .inr ⟨_, read, refused⟩, rfl⟩

/-- Settings that are searched for are always found, if only the defaults. -/
theorem loadSettings_onlyReads_of_unnamed (unnamed : options.settingsFile = none) :
    OnlyReads (options.loadSettings : OnTree _) tree (options.Loads tree)
      (options.FailsToLoad tree) := by
  let start := FileTree.pathOf tree.workingLocation
  have run : (Settings.discoverHere : OnTree _).run tree =
      (Settings.discover start : OnTree _).run tree := rfl
  rw [Settings.run_discover FileTree.readsAs] at run
  refine ⟨.ok ((Settings.nearestText? tree.read (start.ancestors Settings.maxDirectories)).elim
    {} Settings.ofText), ?_, fun settings => ⟨?_, ?_⟩, fun error => ⟨nofun, ?_⟩⟩
  · simp only [loadSettings, unnamed]
    rw [StateT.run_bind, run]
    rfl
  · intro loaded
    exact .found unnamed (Settings.decided_iff.mpr (Except.ok.inj loaded).symm)
  · intro loads
    cases loads with
    | named named _ _ => simp [unnamed] at named
    | found _ decided => exact congrArg Except.ok (Settings.decided_iff.mp decided).symm
  · rintro (⟨named, _⟩ | ⟨named, _, _⟩) <;> simp [unnamed] at named

theorem loadSettings_onlyReads :
    OnlyReads (options.loadSettings : OnTree _) tree (options.Loads tree)
      (options.FailsToLoad tree) := by
  cases given : options.settingsFile with
  | some path => exact loadSettings_onlyReads_of_named options tree given
  | none => exact loadSettings_onlyReads_of_unnamed options tree given

theorem loadPool_onlyReads :
    OnlyReads (options.loadPool : OnTree _) tree (options.Defines tree)
      (options.FailsToDefine tree) := by
  have reads : OnlyReads (HierarchyDocument.load options.path) tree _ _ :=
    onlyReads_file options.path (HierarchyDocument.ofText options.path) _ tree
  obtain ⟨loaded, run, succeeds, fails⟩ := reads
  refine ⟨(loaded.bind fun document => ClassPool.ofDefinitions document.classes).mapError
    (.hierarchy options.path), ?_, fun pool => ?_, fun error => ?_⟩
  · rw [loadPool, StateT.run_bind, run]
    rfl
  · rw [Except.mapError_eq_ok_iff]
    refine Except.bind_eq_ok_iff.trans ⟨?_, ?_⟩
    · rintro ⟨document, parsed, built⟩
      obtain ⟨source, read, parsed⟩ := (succeeds document).mp parsed
      exact .intro read parsed built
    · rintro ⟨read, parsed, built⟩
      exact ⟨_, (succeeds _).mpr ⟨_, read, parsed⟩, built⟩
  · rw [Except.mapError_eq_error_iff]
    constructor
    · rintro ⟨cause, failed, rfl⟩
      rcases Except.bind_eq_error_iff.mp failed with failed | ⟨document, parsed, refused⟩
      · rcases (fails cause).mp failed with ⟨fault, unread, rfl⟩ | ⟨source, read, malformed⟩
        · exact .unreadable unread
        · exact .malformed read malformed
      · obtain ⟨source, read, parsed⟩ := (succeeds document).mp parsed
        exact .refused read parsed refused
    · intro failed
      cases failed with
      | unreadable unread =>
          exact ⟨_, Except.bind_eq_error_iff.mpr (.inl ((fails _).mpr (.inl ⟨_, unread, rfl⟩))),
            rfl⟩
      | malformed read malformed =>
          exact ⟨_, Except.bind_eq_error_iff.mpr (.inl ((fails _).mpr (.inr ⟨_, read, malformed⟩))),
            rfl⟩
      | refused read parsed refused =>
          exact ⟨_, Except.bind_eq_error_iff.mpr
            (.inr ⟨_, (succeeds _).mpr ⟨_, read, parsed⟩, refused⟩), rfl⟩

theorem report_eq_ok_iff {options : ClassifyOptions} {settings : Settings} {format : OutputFormat}
    {pool : ClassPool} {onTerminal : Bool} {threads : ThreadStart} {text : String} :
    options.report settings format pool onTerminal threads = .ok text ↔
      ∃ reports, pool.classify settings.classification settings.parallel threads = .ok reports ∧
        text = format.write (settings.useColor options onTerminal) reports := by
  rw [report, Except.bind_eq_ok_iff]
  constructor
  · rintro ⟨reports, classified, written⟩
    exact ⟨reports, Except.mapError_eq_ok_iff.mp classified, (Except.ok.inj written).symm⟩
  · rintro ⟨reports, classified, rfl⟩
    exact ⟨reports, Except.mapError_eq_ok_iff.mpr classified, rfl⟩

variable (onTerminal : Bool) (threads : ThreadStart)

/-- The report that follows from what has been loaded. -/
def reportOn (loaded : Except CommandError Settings) (pool : Except CommandError ClassPool) :
    Except CommandError String :=
  loaded.bind fun loaded =>
    (((loaded.override options).format options).mapError .request).bind fun format =>
      pool.bind fun pool => options.report (loaded.override options) format pool onTerminal threads

variable {options tree onTerminal threads} {loaded : Except CommandError Settings}
  {pool : Except CommandError ClassPool}

theorem reportOn_eq_ok_iff (loads : ∀ settings, loaded = .ok settings ↔ options.Loads tree settings)
    (defines : ∀ defined, pool = .ok defined ↔ options.Defines tree defined) {text : String} :
    options.reportOn onTerminal threads loaded pool = .ok text ↔
      options.Reports onTerminal threads tree text := by
  constructor
  · intro reported
    obtain ⟨loaded, isLoaded, reported⟩ := Except.bind_eq_ok_iff.mp reported
    obtain ⟨format, hasFormat, reported⟩ := Except.bind_eq_ok_iff.mp reported
    obtain ⟨pool, isPool, reported⟩ := Except.bind_eq_ok_iff.mp reported
    obtain ⟨reports, classified, rfl⟩ := report_eq_ok_iff.mp reported
    exact .intro ((loads _).mp isLoaded) (Except.mapError_eq_ok_iff.mp hasFormat)
      ((defines _).mp isPool) classified
  · rintro ⟨isLoaded, hasFormat, isPool, classified⟩
    rw [(loads _).mpr isLoaded, (defines _).mpr isPool, reportOn]
    simp only [Except.bind, hasFormat, Except.mapError]
    exact report_eq_ok_iff.mpr ⟨_, classified, rfl⟩

/-- When the settings and the pool are loaded by reading alone, a run hands over the report on them
or fails. -/
theorem run_eq_of_run
    (runSettings : (options.loadSettings : OnTree _).run tree = (loaded, tree))
    (runPool : (options.loadPool : OnTree _).run tree = (pool, tree)) :
    (options.run onTerminal threads : OnTree _).run tree =
      match options.reportOn onTerminal threads loaded pool with
      | .ok text => (options.deliver text : OnTree _).run tree
      | .error error => (.error error, tree) := by
  rw [run, run_bind_of_run runSettings]
  cases loaded with
  | error error => rfl
  | ok loaded =>
      simp only [reportOn, Except.bind]
      cases (loaded.override options).format options with
      | error error => rfl
      | ok format =>
          simp only [Except.mapError]
          rw [run_bind_of_run runPool]
          cases pool with
          | error error => rfl
          | ok pool =>
              simp only
              cases options.report (loaded.override options) format pool onTerminal threads <;> rfl

/-- What a classification leaves behind: its result, and the file system after it. -/
structure Leaves (options : ClassifyOptions) (onTerminal : Bool) (threads : ThreadStart)
    (before : FileTree) (result : Except CommandError String) (after : FileTree) : Prop where
  /-- A classification that fails changes nothing. -/
  failed : ∀ error, result = .error error → after = before
  /-- Without an output file nothing changes, and the report on the files is printed. -/
  printed : options.output = none →
    after = before ∧ ∀ text, result = .ok text ↔ options.Reports onTerminal threads before text
  /-- With an output file the report on the files as they were is written to it. -/
  saved : ∀ path, options.output = some path → ∀ printed, result = .ok printed →
    printed = "" ∧ ∃ text, options.Reports onTerminal threads before text ∧
      before.Written path text after
  /-- A report is written if its file can be. -/
  succeeds : ∀ path, options.output = some path →
    ∀ text, options.Reports onTerminal threads before text →
    ∀ written, before.write path text = .ok written → result = .ok ""

theorem Leaves.of_refusal {error : CommandError}
    (unreported : ∀ text, ¬ options.Reports onTerminal threads tree text) :
    options.Leaves onTerminal threads tree (.error error) tree where
  failed _ _ := rfl
  printed _ := ⟨rfl, fun text => ⟨nofun, fun given => absurd given (unreported text)⟩⟩
  saved := nofun
  succeeds _ _ text given := absurd given (unreported text)

/-- The one report that is asked for is printed, or written on the files as they are. -/
theorem leaves_deliver {text : String}
    (reports : ∀ another, .ok text = (.ok another : Except CommandError String) ↔
      options.Reports onTerminal threads tree another) :
    options.Leaves onTerminal threads tree ((options.deliver text : OnTree _).run tree).1
      ((options.deliver text : OnTree _).run tree).2 := by
  have given : options.Reports onTerminal threads tree text := (reports text).mp rfl
  cases output : options.output with
  | none =>
      simp only [deliver, output]
      exact {
        failed := nofun
        printed := fun _ => ⟨rfl, reports⟩
        saved := fun _ named => by rw [output] at named; contradiction
        succeeds := fun _ named => by rw [output] at named; contradiction }
  | some path =>
      simp only [deliver, output]
      cases wrote : tree.write path text with
      | error fault =>
          rw [run_bind_of_run (run_write_of_error wrote)]
          refine {
            failed := fun _ _ => rfl
            printed := fun unnamed => by rw [output] at unnamed; contradiction
            saved := fun _ _ _ succeeded => by contradiction
            succeeds := fun other named another given written writes => ?_ }
          obtain rfl := Option.some.inj (output.symm.trans named)
          obtain rfl := Except.ok.inj ((reports another).mpr given)
          rw [wrote] at writes
          contradiction
      | ok after =>
          rw [StateT.run_bind, run_write_of_ok wrote]
          refine {
            failed := nofun
            printed := fun unnamed => by rw [output] at unnamed; contradiction
            saved := fun other named printed succeeded => ?_
            succeeds := fun other named _ _ _ _ => rfl }
          obtain rfl := Option.some.inj (output.symm.trans named)
          exact ⟨(Except.ok.inj succeeded).symm, text, given, FileTree.written_of_write wrote⟩

theorem leaves_run (options : ClassifyOptions) (onTerminal : Bool) (threads : ThreadStart)
    (tree : FileTree) :
    options.Leaves onTerminal threads tree ((options.run onTerminal threads : OnTree _).run tree).1
      ((options.run onTerminal threads : OnTree _).run tree).2 := by
  obtain ⟨loaded, runSettings, loads, _⟩ := options.loadSettings_onlyReads tree
  obtain ⟨pool, runPool, defines, _⟩ := options.loadPool_onlyReads tree
  have reports (text : String) : options.reportOn onTerminal threads loaded pool = .ok text ↔
      options.Reports onTerminal threads tree text := reportOn_eq_ok_iff loads defines
  rw [run_eq_of_run runSettings runPool]
  cases reported : options.reportOn onTerminal threads loaded pool with
  | error error =>
      rw [reported] at reports
      exact .of_refusal fun text given => nomatch (reports text).mpr given
  | ok text =>
      rw [reported] at reports
      exact leaves_deliver reports

end ClassifyOptions

namespace Settings

/-- What the creation of a settings file leaves behind: its result, and the file system after it. -/
structure Creates (path : Path) (force : Bool) (before : FileTree)
    (result : Except CommandError Path) (after : FileTree) : Prop where
  /-- A file that exists is not replaced unless that is asked for. -/
  refused : before.pathExists path = true → force = false →
    result = .error .settingsExist ∧ after = before
  failed : ∀ error, result = .error error → after = before
  created : ∀ created, result = .ok created →
    created = path ∧ before.Written path initialText after
  /-- A file is created if it can be written. -/
  succeeds : before.pathExists path = false ∨ force = true →
    ∀ written, before.write path initialText = .ok written → result = .ok path

theorem creates_create (directory : Path) (force : Bool) (tree : FileTree) :
    Creates (directory.join fileName) force tree
      ((create directory force : OnTree _).run tree).1
      ((create directory force : OnTree _).run tree).2 := by
  have exists_run : (FileAccess.pathExists (directory.join fileName) : OnTree _).run tree =
      (tree.pathExists (directory.join fileName), tree) := rfl
  rw [create, run_bind_of_run exists_run]
  cases blocked : tree.pathExists (directory.join fileName) && !force with
  | true =>
      obtain ⟨present, unforced⟩ := Bool.and_eq_true_iff.mp blocked
      simp only [if_true]
      exact {
        refused := fun _ _ => ⟨rfl, rfl⟩
        failed := fun _ _ => rfl
        created := nofun
        succeeds := fun free => by simp_all }
  | false =>
      simp only [Bool.false_eq_true, if_false]
      cases wrote : tree.write (directory.join fileName) initialText with
      | error fault =>
          rw [run_bind_of_run (run_write_of_error wrote)]
          exact {
            refused := fun present unforced => by simp [present, unforced] at blocked
            failed := fun _ _ => rfl
            created := nofun
            succeeds := fun _ _ written => by rw [wrote] at written; contradiction }
      | ok after =>
          rw [StateT.run_bind, run_write_of_ok wrote]
          exact {
            refused := fun present unforced => by simp [present, unforced] at blocked
            failed := nofun
            created := fun _ created =>
              ⟨(Except.ok.inj created).symm, FileTree.written_of_write wrote⟩
            succeeds := fun _ _ _ => rfl }

end Settings

/-- Whatever the files are and whatever threads can be started, a classification that fails and a
settings file that is not created leave all files as they were; what succeeds changes the one file
that it writes, and nothing else. -/
theorem commands_change_output_only (tree : FileTree) :
    (∀ options onTerminal threads, ClassifyOptions.Leaves options onTerminal threads tree
      ((options.run onTerminal threads : OnTree _).run tree).1
      ((options.run onTerminal threads : OnTree _).run tree).2) ∧
    ∀ directory force, Settings.Creates (directory.join Settings.fileName) force tree
      ((Settings.create directory force : OnTree _).run tree).1
      ((Settings.create directory force : OnTree _).run tree).2 :=
  ⟨fun options onTerminal threads => options.leaves_run onTerminal threads tree,
    fun directory force => Settings.creates_create directory force tree⟩

end BridgeMethods
