import BridgeMethods.Proofs.Command.Effects
import BridgeMethods.Proofs.Settings.Override

/-!
# What makes a classification fail

Once settings are loaded, nothing that they contain makes a classification fail.  That is so for
every way in which accesses to files can depend on a state and change it.

On a file system, a classification fails for a settings file that is named and cannot be used, for
the hierarchy document, for threads that cannot be started, or for the file of the reports.  Each
error tells what is wrong there, and where nothing is wrong there is no error.
-/

namespace BridgeMethods

/-! ## Results of programs with a state -/

section Always

variable {σ α β : Type} {p : α → Prop} {q : β → Prop}

/-- Whatever state a program starts in, its result has a property. -/
def Always (p : α → Prop) (program : StateM σ α) : Prop :=
  ∀ state, p (program.run state).1

theorem Always.pure {a : α} (holds : p a) : Always p (pure a : StateM σ α) :=
  fun _ => holds

theorem Always.bind {program : StateM σ α} {next : α → StateM σ β} (first : Always p program)
    (rest : ∀ a, p a → Always q (next a)) : Always q (program >>= next) :=
  fun state => rest _ (first state) _

theorem Always.of_next {program : StateM σ α} {next : α → StateM σ β}
    (each : ∀ a, Always q (next a)) : Always q (program >>= next) :=
  fun _ => each _ _

end Always

namespace ClassifyOptions

/-! ## Settings that are loaded -/

section Loading

variable {σ : Type} [FileAccess (StateM σ)] (options : ClassifyOptions)

/-- If there are settings, then every name in them is known. -/
def AcceptedIfAny {ε : Type} (loaded : Except ε Settings) : Prop :=
  ∀ settings, loaded = .ok settings → settings.Accepted

theorem discoverHere_accepted :
    Always Settings.Accepted (Settings.discoverHere : StateM σ Settings) := by
  refine Always.of_next fun start => ?_
  cases start with
  | error fault => exact Always.pure Settings.accepted_default
  | ok start =>
      refine Always.of_next fun source => ?_
      cases source with
      | none => exact Always.pure Settings.accepted_default
      | some source => exact Always.pure (Settings.accepted_ofText source)

theorem load_accepted (path : Path) :
    Always AcceptedIfAny (Settings.load path : StateM σ (Except Error Settings)) := by
  refine Always.of_next fun source => ?_
  cases source with
  | error fault => exact Always.pure nofun
  | ok source => exact Always.pure fun _ => Settings.accepted_of_parse

/-- Settings that are loaded are accepted, wherever they come from. -/
theorem loadSettings_accepted : Always AcceptedIfAny (options.loadSettings : StateM σ _) := by
  unfold loadSettings
  cases options.settingsFile with
  | none =>
      refine Always.bind discoverHere_accepted fun settings accepted => Always.pure ?_
      rintro _ ⟨rfl⟩
      exact accepted
  | some path =>
      refine Always.bind (load_accepted path) fun loaded accepted => Always.pure ?_
      exact fun settings isLoaded => accepted settings (Except.mapError_eq_ok_iff.mp isLoaded)

end Loading

theorem Loads.merges {options : ClassifyOptions} {tree : FileTree} {settings : Settings}
    (loads : options.Loads tree settings) :
    settings.Merges options (settings.override options) := by
  obtain ⟨loaded, run, succeeds, _⟩ := options.loadSettings_onlyReads tree
  have accepted := loadSettings_accepted options tree
  rw [run] at accepted
  exact (accepted settings ((succeeds settings).mpr loads)).merges options

/-! ## Failures -/

/-- Why there is no report: the settings or the pool cannot be loaded, or threads are asked for that
cannot be started.  Each of these comes up if those before it do not. -/
inductive Unreported (options : ClassifyOptions) (threads : ThreadStart) (tree : FileTree) :
    CommandError → Prop
  | settings {error : CommandError} :
      options.FailsToLoad tree error → Unreported options threads tree error
  | hierarchy {loaded : Settings} {error : CommandError} :
      options.Loads tree loaded → options.FailsToDefine tree error →
      Unreported options threads tree error
  | threads {loaded : Settings} {pool : ClassPool} {count : Nat} {reason : String} :
      options.Loads tree loaded → options.Defines tree pool →
      (loaded.override options).parallel.enabled = true →
      (loaded.override options).parallel.effectiveConcurrency? = some count →
      threads count = .error reason →
      Unreported options threads tree
        (.request (.configuration ("Failed to build thread pool: " ++ reason)))

/-- Why a classification fails: there is no report, or the file for it cannot be written. -/
inductive Fails (options : ClassifyOptions) (onTerminal : Bool) (threads : ThreadStart)
    (tree : FileTree) : CommandError → Prop
  | unreported {error : CommandError} :
      options.Unreported threads tree error → Fails options onTerminal threads tree error
  | output {text : String} {path : Path} {fault : FileFault} :
      options.Reports onTerminal threads tree text → options.output = some path →
      tree.write path text = .error fault →
      Fails options onTerminal threads tree (.output path fault)

variable {options : ClassifyOptions} {onTerminal : Bool} {threads : ThreadStart} {tree : FileTree}
  {error : CommandError}

/-- With sorts that are known, a report is not made only if threads cannot be started. -/
theorem report_eq_error_iff {settings : Settings} {selected : List MethodSort}
    (selects : settings.classification.selectedSorts = .ok selected) {format : OutputFormat}
    {pool : ClassPool} :
    options.report settings format pool onTerminal threads = .error error ↔
      ∃ cause, settings.parallel.startThreads threads = .error cause ∧ .request cause = error := by
  rw [report, ClassPool.classify_eq_map selects]
  cases settings.parallel.startThreads threads <;> simp [Except.map, Except.mapError]

/-- Settings that are loaded name a known format and known sorts, so the pool and the threads are
left to fail. -/
theorem reportOn_loaded_eq_error_iff {settings : Settings} (isLoaded : options.Loads tree settings)
    {pool : Except CommandError ClassPool} :
    options.reportOn onTerminal threads (.ok settings) pool = .error error ↔
      pool = .error error ∨ ∃ defined, pool = .ok defined ∧ ∃ cause,
        (settings.override options).parallel.startThreads threads = .error cause ∧
          .request cause = error := by
  obtain ⟨format, hasFormat⟩ := isLoaded.merges.hasFormat
  obtain ⟨selected, selects⟩ := isLoaded.merges.selects
  simp only [reportOn, Except.bind, hasFormat, Except.mapError]
  cases pool with
  | error cause => simp
  | ok defined => simp [report_eq_error_iff selects]

theorem reportOn_eq_error_iff {loaded : Except CommandError Settings}
    {pool : Except CommandError ClassPool}
    (loads : ∀ settings, loaded = .ok settings ↔ options.Loads tree settings)
    (failsToLoad : ∀ error, loaded = .error error ↔ options.FailsToLoad tree error)
    (defines : ∀ defined, pool = .ok defined ↔ options.Defines tree defined)
    (failsToDefine : ∀ error, pool = .error error ↔ options.FailsToDefine tree error) :
    options.reportOn onTerminal threads loaded pool = .error error ↔
      options.Unreported threads tree error := by
  constructor
  · intro failed
    rcases Except.bind_eq_error_iff.mp failed with notLoaded | ⟨settings, rfl, _⟩
    · exact .settings ((failsToLoad error).mp notLoaded)
    · have isLoaded := (loads settings).mp rfl
      rcases (reportOn_loaded_eq_error_iff isLoaded).mp failed with
        undefined | ⟨defined, isDefined, cause, notStarted, rfl⟩
      · exact .hierarchy isLoaded ((failsToDefine error).mp undefined)
      · obtain ⟨enabled, count, reason, counted, refused, rfl⟩ :=
          ParallelSettings.startThreads_eq_error_iff.mp notStarted
        exact .threads isLoaded ((defines defined).mp isDefined) enabled counted refused
  · intro unreported
    cases unreported with
    | settings failed => exact Except.bind_eq_error_iff.mpr (.inl ((failsToLoad error).mpr failed))
    | hierarchy isLoaded failed =>
        rw [(loads _).mpr isLoaded, reportOn_loaded_eq_error_iff isLoaded]
        exact .inl ((failsToDefine error).mpr failed)
    | threads isLoaded isDefined enabled counted refused =>
        rw [(loads _).mpr isLoaded, reportOn_loaded_eq_error_iff isLoaded]
        have notStarted := ParallelSettings.startThreads_eq_error_iff.mpr
          ⟨enabled, _, _, counted, refused, rfl⟩
        exact .inr ⟨_, (defines _).mpr isDefined, _, notStarted, rfl⟩

theorem deliver_eq_error_iff {text : String} :
    ((options.deliver text : OnTree _).run tree).1 = .error error ↔
      ∃ path fault, options.output = some path ∧ tree.write path text = .error fault ∧
        .output path fault = error := by
  cases output : options.output with
  | none => simp [deliver, output]
  | some path =>
      simp only [deliver, output]
      cases wrote : tree.write path text with
      | error fault =>
          rw [run_bind_of_run (run_write_of_error wrote)]
          change Except.error (CommandError.output path fault) = _ ↔ _
          simp [wrote]
      | ok after =>
          rw [StateT.run_bind, run_write_of_ok wrote]
          change Except.ok "" = _ ↔ _
          simp [wrote]

theorem run_eq_error_iff (options : ClassifyOptions) (onTerminal : Bool) (threads : ThreadStart)
    (tree : FileTree) (error : CommandError) :
    ((options.run onTerminal threads : OnTree _).run tree).1 = .error error ↔
      options.Fails onTerminal threads tree error := by
  obtain ⟨loaded, runSettings, loads, failsToLoad⟩ := options.loadSettings_onlyReads tree
  obtain ⟨pool, runPool, defines, failsToDefine⟩ := options.loadPool_onlyReads tree
  have reports (text : String) : options.reportOn onTerminal threads loaded pool = .ok text ↔
      options.Reports onTerminal threads tree text := reportOn_eq_ok_iff loads defines
  have unreported (error : CommandError) :
      options.reportOn onTerminal threads loaded pool = .error error ↔
        options.Unreported threads tree error :=
    reportOn_eq_error_iff loads failsToLoad defines failsToDefine
  rw [run_eq_of_run runSettings runPool]
  cases reported : options.reportOn onTerminal threads loaded pool with
  | error cause =>
      rw [reported] at reports unreported
      constructor
      · intro failed
        obtain rfl := Except.error.inj failed
        exact .unreported ((unreported cause).mp rfl)
      · intro fails
        cases fails with
        | unreported isError => exact (unreported error).mpr isError
        | output given _ _ => exact nomatch (reports _).mpr given
  | ok text =>
      rw [reported] at reports unreported
      simp only
      rw [deliver_eq_error_iff]
      constructor
      · rintro ⟨path, fault, output, unwritten, rfl⟩
        exact .output ((reports text).mp rfl) output unwritten
      · intro fails
        cases fails with
        | unreported isError => exact nomatch (unreported error).mpr isError
        | output given output unwritten =>
            obtain rfl := Except.ok.inj ((reports _).mpr given)
            exact ⟨_, _, output, unwritten, rfl⟩

/-- Loaded settings have only known names once options have overridden them, whatever the files are.
A classification fails just for a settings file that is named, the hierarchy document, threads that
cannot be started and the file for the reports, and its error tells what is wrong with them. -/
theorem loaded_settings_never_fail (options : ClassifyOptions) :
    (∀ (σ : Type) [FileAccess (StateM σ)] (state : σ) (settings : Settings),
      ((options.loadSettings : StateM σ _).run state).1 = .ok settings →
        settings.Merges options (settings.override options)) ∧
    ∀ onTerminal threads tree error,
      ((options.run onTerminal threads : OnTree _).run tree).1 = .error error ↔
        options.Fails onTerminal threads tree error := by
  refine ⟨fun σ _ state settings loaded => ?_, run_eq_error_iff options⟩
  exact (loadSettings_accepted options state settings loaded).merges options

/-- A working directory that holds a settings file and a hierarchy document without definitions. -/
def settingsAndDocument : FileTree :=
  ((FileTree.empty ["work"]).set ["work", Settings.fileName] (.file (some
    "[classification]\nsorts = [\"Return_Type_Bridge\"]\n[output]\ndefault_format = \" JSON\"\n"))).set
    ["work", "empty.json"] (.file (some "\x7b\x7d"))

/-- Options that ask for three threads to classify the document with a name. -/
def threeThreads (name : String) : ClassifyOptions where
  path := ⟨name⟩
  jobs := some 3

theorem loaded_settings_never_fail_scenario :
    (∃ settings,
      (((threeThreads "empty.json").loadSettings : OnTree _).run settingsAndDocument).1 =
        .ok settings ∧
      settings.classification.sorts = some ["Return_Type_Bridge"] ∧
      settings.defaultFormat? = some " JSON" ∧
      settings.Merges (threeThreads "empty.json") (settings.override (threeThreads "empty.json"))) ∧
    (threeThreads "missing.json").Fails true .unlimited settingsAndDocument
      (.hierarchy ⟨"missing.json"⟩ (.fileSystem "Failed to read hierarchy document missing.json"
        (some "missing.json") (some .notFound))) ∧
    (threeThreads "empty.json").Fails true
      (fun _ => .error "Resource temporarily unavailable (os error 11)") settingsAndDocument
      (.request (.configuration
        "Failed to build thread pool: Resource temporarily unavailable (os error 11)")) := by
  obtain ⟨settings, loaded, sorts, format⟩ :
      ∃ settings,
        (((threeThreads "empty.json").loadSettings : OnTree _).run settingsAndDocument).1 =
          .ok settings ∧
        settings.classification.sorts = some ["Return_Type_Bridge"] ∧
        settings.defaultFormat? = some " JSON" :=
    ⟨_, rfl, by decide +kernel, by decide +kernel⟩
  refine ⟨⟨settings, loaded, sorts, format, ?_⟩, ?_, ?_⟩
  · exact (loaded_settings_never_fail _).1 FileTree settingsAndDocument settings loaded
  · exact ((loaded_settings_never_fail _).2 _ _ _ _).mp (by decide +kernel)
  · exact ((loaded_settings_never_fail _).2 _ _ _ _).mp (by decide +kernel)

end ClassifyOptions

end BridgeMethods
