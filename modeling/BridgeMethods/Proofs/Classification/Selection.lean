import BridgeMethods.Proofs.Lookup
import BridgeMethods.Proofs.Result
import BridgeMethods.Report.Basic

/-!
# Selected sorts

Settings select the sorts of a classification by name.  They are read before any method is looked
at: the first name that denotes no sort is the error, whatever the pool is, and if there is none
then every pool is classified, as soon as there are the threads that are asked for.
-/

namespace BridgeMethods

namespace MethodSort

theorem parse_eq_error {text : String} (unknown : (parse text).isOk = false) :
    parse text = .error (.unknownSort text) := by
  unfold parse at unknown ⊢
  generalize all.find? (·.name = normalize text) = found at unknown ⊢
  cases found with
  | none => rfl
  | some s => cases unknown

/-- Names are read one after the other, so the first one that denotes no sort is the error. -/
theorem mapM_parse_eq_error {names : List String} {unknown : String}
    (found : names.find? (fun name => !(parse name).isOk) = some unknown) :
    names.mapM parse = .error (.unknownSort unknown) := by
  induction names with
  | nil => contradiction
  | cons name names ih =>
      rw [List.find?_cons] at found
      rw [List.mapM_cons]
      cases known : (parse name).isOk with
      | false =>
          rw [known] at found
          obtain rfl := Option.some.inj found
          rw [parse_eq_error known]
          rfl
      | true =>
          rw [known] at found
          obtain ⟨s, parsed⟩ := Except.isOk_iff.mp known
          rw [parsed, ih found]
          rfl

end MethodSort

namespace ClassificationSettings

variable {settings : ClassificationSettings}

/-- The first name in settings that denotes no sort. -/
def firstUnknown? (settings : ClassificationSettings) : Option String :=
  settings.sorts.bind fun names => names.find? fun name => !(MethodSort.parse name).isOk

theorem selectedSorts_eq_error {unknown : String}
    (found : settings.firstUnknown? = some unknown) :
    settings.selectedSorts = .error (.unknownSort unknown) := by
  rcases Option.bind_eq_some_iff.mp found with ⟨names, given, found⟩
  simp only [selectedSorts, given, MethodSort.mapM_parse_eq_error found]
  rfl

/-- Names that denote sorts, one each, select these sorts. -/
theorem selectedSorts_eq_ok {names : List String} {sorts : List MethodSort}
    (given : settings.sorts = some names)
    (parsed : List.Forall₂ (fun name s => MethodSort.parse name = .ok s) names sorts) :
    settings.selectedSorts = .ok (MethodSort.inOrder sorts) := by
  have read : names.mapM MethodSort.parse = .ok sorts :=
    (Except.mapM_eq_ok_iff fun _ _ => Iff.rfl).mpr parsed
  simp only [selectedSorts, given, read]
  rfl

theorem exists_selectedSorts (known : settings.firstUnknown? = none) :
    ∃ selected, settings.selectedSorts = .ok selected := by
  cases given : settings.sorts with
  | none => exact ⟨MethodSort.all, by simp only [selectedSorts, given]⟩
  | some names =>
      rw [firstUnknown?, given, Option.bind_some, List.find?_eq_none] at known
      have each : ∀ name ∈ names, ∃ s, MethodSort.parse name = .ok s :=
        fun name member => Except.isOk_iff.mp (by simpa using known name member)
      obtain ⟨sorts, parsed⟩ := List.exists_forall₂_iff.mpr each
      exact ⟨MethodSort.inOrder sorts, selectedSorts_eq_ok given parsed⟩

end ClassificationSettings

/-! ## Threads -/

namespace ParallelSettings

variable {parallel : ParallelSettings} {threads : ThreadStart}

/-- Threads are started only for work that is shared, and only if a number of them is given. -/
theorem startThreads_eq_error_iff {error : Error} :
    parallel.startThreads threads = .error error ↔
      parallel.enabled = true ∧ ∃ count reason, parallel.effectiveConcurrency? = some count ∧
        threads count = .error reason ∧
        .configuration ("Failed to build thread pool: " ++ reason) = error := by
  rw [startThreads]
  cases parallel.enabled with
  | false => simp
  | true =>
      cases parallel.effectiveConcurrency? with
      | none => simp
      | some count => simp [Except.mapError_eq_error_iff]

end ParallelSettings

/-! ## Reports -/

namespace ClassPool

variable {settings : ClassificationSettings} {parallel : ParallelSettings} {threads : ThreadStart}

/-- The reports on the methods of a pool with respect to selected sorts, as far as settings ask for
them. -/
def reports (pool : ClassPool) (settings : ClassificationSettings) (selected : List MethodSort) :
    List MethodReport :=
  (pool.methods.map (MethodReport.ofMethod pool selected)).filter fun report =>
    settings.includeUnmatched || !report.sorts.isEmpty

theorem classify_eq_error {unknown : String} (found : settings.firstUnknown? = some unknown)
    (pool : ClassPool) :
    pool.classify settings parallel threads = .error (.unknownSort unknown) := by
  rw [classify, ClassificationSettings.selectedSorts_eq_error found]
  rfl

/-- Once sorts are selected, nothing but starting threads can fail, and it has no part in the
reports. -/
theorem classify_eq_map {selected : List MethodSort}
    (selects : settings.selectedSorts = .ok selected) (pool : ClassPool) :
    pool.classify settings parallel threads =
      (parallel.startThreads threads).map fun _ => pool.reports settings selected := by
  rw [classify, selects]
  rfl

theorem classify_eq_ok {selected : List MethodSort}
    (selects : settings.selectedSorts = .ok selected) (pool : ClassPool) :
    pool.classify settings = .ok (pool.reports settings selected) :=
  classify_eq_map selects pool

theorem exists_of_classify_eq_ok {pool : ClassPool} {classified : List MethodReport}
    (succeeded : pool.classify settings parallel threads = .ok classified) :
    ∃ selected, settings.selectedSorts = .ok selected ∧
      classified = pool.reports settings selected := by
  obtain ⟨selected, selects, succeeded⟩ := Except.bind_eq_ok_iff.mp succeeded
  obtain ⟨_, _, taken⟩ := Except.bind_eq_ok_iff.mp succeeded
  exact ⟨selected, selects, (Except.ok.inj taken).symm⟩

/-- Threads that share the work make the reports that one thread makes. -/
theorem classify_shared (pool : ClassPool) (settings : ClassificationSettings)
    (parallel : ParallelSettings) (threads : ThreadStart) :
    pool.classify settings parallel threads =
      (pool.classify settings).bind fun reports =>
        (parallel.startThreads threads).map fun _ => reports := by
  cases selects : settings.selectedSorts with
  | error error =>
      rw [classify, classify, selects]
      rfl
  | ok selected =>
      rw [classify_eq_ok selects, classify_eq_map selects]
      rfl

end ClassPool

end BridgeMethods
