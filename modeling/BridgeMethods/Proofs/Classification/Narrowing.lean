import BridgeMethods.Definition.Scenario
import BridgeMethods.Pool.Validation
import BridgeMethods.Proofs.Classification.Compatibility
import BridgeMethods.Proofs.Classification.Selection
import BridgeMethods.Proofs.SortNames

/-!
# Selecting sorts narrows the full reports

A classification that names sorts gives the reports of the unrestricted one, each with those of its
sorts only that are named; reports that are left without a sort are dropped unless they are asked
for.  So nothing but the set of the named sorts matters: not their order, how often or in which
spelling they are named.
-/

namespace BridgeMethods

namespace MethodSort

/-- A sort is denoted by one of several names. -/
def Named (names : List String) (s : MethodSort) : Prop :=
  ∃ name ∈ names, parse name = .ok s

instance (names : List String) : DecidablePred (Named names) := fun s =>
  inferInstanceAs (Decidable (∃ name ∈ names, parse name = .ok s))

/-- Every name of a list denotes a sort. -/
def AllKnown (names : List String) : Prop :=
  ∀ name ∈ names, ∃ s, parse name = .ok s

/-- A name is the first one of a list that denotes no sort. -/
def FirstUnknown (names : List String) (unknown : String) : Prop :=
  ∃ known rest, names = known ++ unknown :: rest ∧ AllKnown known ∧ ¬∃ s, parse unknown = .ok s

/-- Every name of a list is respelled in another one. -/
def RespelledIn (names others : List String) : Prop :=
  ∀ name ∈ names, ∃ other ∈ others, Text.Respelled name other

variable {names others : List String}

theorem allKnown_iff : AllKnown names ↔ ∀ name ∈ names, (parse name).isOk = true := by
  simp only [AllKnown, Except.isOk_iff]

instance (names : List String) : Decidable (AllKnown names) :=
  decidable_of_iff _ allKnown_iff.symm

theorem find?_unknown_eq_some_iff {unknown : String} :
    names.find? (fun name => !(parse name).isOk) = some unknown ↔ FirstUnknown names unknown := by
  simp only [List.find?_eq_some_iff_append, FirstUnknown, allKnown_iff, ← Except.isOk_iff]
  constructor
  · rintro ⟨isUnknown, known, rest, rfl, allKnown⟩
    exact ⟨known, rest, rfl, by simpa using allKnown, by simpa using isUnknown⟩
  · rintro ⟨known, rest, rfl, allKnown, isUnknown⟩
    exact ⟨by simpa using isUnknown, known, rest, rfl, by simpa using allKnown⟩

theorem exists_firstUnknown (unknown : ¬AllKnown names) : ∃ name, FirstUnknown names name := by
  cases found : names.find? (fun name => !(parse name).isOk) with
  | some name => exact ⟨name, find?_unknown_eq_some_iff.mp found⟩
  | none =>
      refine absurd (allKnown_iff.mpr fun name member => ?_) unknown
      simpa using List.find?_eq_none.mp found name member

theorem Named.of_respelledIn {s : MethodSort} (named : Named names s)
    (respelled : RespelledIn names others) : Named others s := by
  obtain ⟨name, member, parsed⟩ := named
  obtain ⟨other, otherMember, same⟩ := respelled name member
  exact ⟨other, otherMember, (parse_eq_ok_congr same).mp parsed⟩

theorem AllKnown.of_respelledIn (known : AllKnown names) (respelled : RespelledIn others names) :
    AllKnown others := by
  intro other member
  obtain ⟨name, nameMember, same⟩ := respelled other member
  obtain ⟨s, parsed⟩ := known name nameMember
  exact ⟨s, (parse_eq_ok_congr same).mpr parsed⟩

end MethodSort

namespace ClassificationSettings

/-- Names that all denote sorts select the sorts that they denote. -/
theorem exists_selectedSorts_named {names : List String} (known : MethodSort.AllKnown names)
    (includeUnmatched : Bool) :
    ∃ selected, selectedSorts { sorts := some names, includeUnmatched } = .ok selected ∧
      ∀ s, s ∈ selected ↔ MethodSort.Named names s := by
  obtain ⟨sorts, parsed⟩ := List.exists_forall₂_iff.mpr known
  refine ⟨MethodSort.inOrder sorts, selectedSorts_eq_ok rfl parsed, fun s => ?_⟩
  rw [MethodSort.mem_inOrder]
  constructor
  · exact parsed.exists_of_mem_right
  · rintro ⟨name, member, denotes⟩
    obtain ⟨other, otherMember, otherDenotes⟩ := parsed.exists_of_mem_left member
    obtain rfl := Except.ok.inj (denotes.symm.trans otherDenotes)
    exact otherMember

end ClassificationSettings

namespace MethodReport

/-- The report on a method with all its sorts. -/
def full (pool : ClassPool) (method : MethodView) : MethodReport where
  typeName := method.owner.name
  signature := method.signature
  modifiers := method.flags.modifiers
  sorts := pool.sortsOf method

/-- A report with those of its sorts only that are named. -/
def narrow (names : List String) (report : MethodReport) : MethodReport :=
  { report with sorts := report.sorts.filter (MethodSort.Named names ·) }

theorem ofMethod_all (pool : ClassPool) (method : MethodView) :
    ofMethod pool MethodSort.all method = full pool method := by
  simp [ofMethod, full, MethodSort.mem_all]

theorem ofMethod_eq_narrow {names : List String} {selected : List MethodSort}
    (selects : ∀ s, s ∈ selected ↔ MethodSort.Named names s) (pool : ClassPool)
    (method : MethodView) : ofMethod pool selected method = (full pool method).narrow names := by
  simp only [ofMethod, narrow, full, selects]

theorem narrow_congr {names others : List String}
    (same : ∀ s, MethodSort.Named names s ↔ MethodSort.Named others s) :
    narrow names = narrow others := by
  funext report
  simp only [narrow, same]

/-- Every method is of some kind, so a full report has at least one sort. -/
theorem full_sorts_ne_nil (pool : ClassPool) (method : MethodView) :
    (full pool method).sorts ≠ [] := by
  have ofKind : pool.isOfSort method method.kind = true :=
    (ClassPool.isOfSort_iff_of_isKind MethodView.isKind_kind).mpr rfl
  exact List.ne_nil_of_mem (ClassPool.mem_sortsOf_iff.mpr ofKind)

end MethodReport

namespace ClassPool

/-- The reports on all methods of a pool, in the order of definitions, with all their sorts. -/
def fullReports (pool : ClassPool) : List MethodReport :=
  pool.methods.map (MethodReport.full pool)

/-- Without a selection nothing is left out, whether unmatched methods are asked for or not. -/
theorem classify_of_selects_all {settings : ClassificationSettings}
    (selects : settings.selectedSorts = .ok MethodSort.all) (pool : ClassPool) :
    pool.classify settings = .ok pool.fullReports := by
  rw [classify_eq_ok selects, reports, funext (MethodReport.ofMethod_all pool)]
  refine congrArg Except.ok (List.filter_eq_self.mpr fun report member => ?_)
  obtain ⟨method, _, rfl⟩ := List.mem_map.mp member
  simp [MethodReport.full_sorts_ne_nil]

theorem classify_of_allKnown {names : List String} (known : MethodSort.AllKnown names)
    (pool : ClassPool) (includeUnmatched : Bool) :
    pool.classify { sorts := some names, includeUnmatched } =
      .ok ((pool.fullReports.map (·.narrow names)).filter fun report =>
        includeUnmatched || !report.sorts.isEmpty) := by
  obtain ⟨selected, selects, same⟩ :=
    ClassificationSettings.exists_selectedSorts_named known includeUnmatched
  rw [classify_eq_ok selects, reports, funext (MethodReport.ofMethod_eq_narrow same pool),
    fullReports, List.map_map]
  rfl

theorem classify_of_firstUnknown {names : List String} {unknown : String}
    (first : MethodSort.FirstUnknown names unknown) (pool : ClassPool) (includeUnmatched : Bool) :
    pool.classify { sorts := some names, includeUnmatched } = .error (.unknownSort unknown) := by
  apply classify_eq_error
  rw [ClassificationSettings.firstUnknown?, Option.bind_some]
  exact MethodSort.find?_unknown_eq_some_iff.mpr first

/-- Classifying a pool with a selection of sorts, compared with its full reports. -/
structure Narrows (pool : ClassPool) : Prop where
  /-- Without a selection the result is the full reports, one on each declared method. -/
  unrestricted : ∀ includeUnmatched, pool.classify { includeUnmatched } = .ok pool.fullReports
  /-- Nothing but a name that denotes no sort makes classifying fail. -/
  refused_iff : ∀ names includeUnmatched,
    (∃ error, pool.classify { sorts := some names, includeUnmatched } = .error error) ↔
      ∃ name ∈ names, ¬∃ s, MethodSort.parse name = .ok s
  /-- The error is about the first such name, as it is written. -/
  refusal : ∀ names includeUnmatched error,
    pool.classify { sorts := some names, includeUnmatched } = .error error →
      ∃ unknown, MethodSort.FirstUnknown names unknown ∧ error = .unknownSort unknown
  /-- If every name denotes a sort, then the full reports are narrowed to the named sorts, and
  those that are left without a sort are dropped unless they are asked for. -/
  narrowed : ∀ names, MethodSort.AllKnown names → ∀ includeUnmatched,
    pool.classify { sorts := some names, includeUnmatched } =
      .ok ((pool.fullReports.map (·.narrow names)).filter fun report =>
        includeUnmatched || !report.sorts.isEmpty)
  /-- Only the set of the named sorts matters. -/
  same_set : ∀ names others, MethodSort.AllKnown names → MethodSort.AllKnown others →
    (∀ s, MethodSort.Named names s ↔ MethodSort.Named others s) → ∀ includeUnmatched,
      pool.classify { sorts := some names, includeUnmatched } =
        pool.classify { sorts := some others, includeUnmatched }
  /-- So names may be put in another order, repeated and respelled. -/
  same_names : ∀ names others, MethodSort.AllKnown names → MethodSort.RespelledIn names others →
    MethodSort.RespelledIn others names → ∀ includeUnmatched,
      pool.classify { sorts := some names, includeUnmatched } =
        pool.classify { sorts := some others, includeUnmatched }
  /-- Asking for the unmatched methods adds those reports only that are left without a sort. -/
  matched : ∀ sorts reports, pool.classify { sorts, includeUnmatched := true } = .ok reports →
    pool.classify { sorts, includeUnmatched := false } =
      .ok (reports.filter fun report => !report.sorts.isEmpty)
  /-- All of this is so for a single thread.  If threads share the work, they have to be started;
  the reports, and the error about a name, are the same. -/
  shared : ∀ settings parallel threads, pool.classify settings parallel threads =
    (pool.classify settings).bind fun reports =>
      (parallel.startThreads threads).map fun _ => reports

/-- Selecting sorts commutes with classifying, for every pool and every list of names. -/
theorem classify_narrows (pool : ClassPool) : pool.Narrows where
  unrestricted includeUnmatched := classify_of_selects_all rfl pool
  refused_iff names includeUnmatched := by
    constructor
    · rintro ⟨error, refused⟩
      by_contra known
      push Not at known
      rw [classify_of_allKnown known] at refused
      contradiction
    · rintro ⟨name, member, unknown⟩
      obtain ⟨first, isFirst⟩ :=
        MethodSort.exists_firstUnknown fun known => unknown (known name member)
      exact ⟨_, classify_of_firstUnknown isFirst pool includeUnmatched⟩
  refusal names includeUnmatched error refused := by
    by_cases known : MethodSort.AllKnown names
    · rw [classify_of_allKnown known] at refused
      contradiction
    · obtain ⟨unknown, first⟩ := MethodSort.exists_firstUnknown known
      rw [classify_of_firstUnknown first] at refused
      exact ⟨unknown, first, (Except.error.inj refused).symm⟩
  narrowed names known := classify_of_allKnown known pool
  same_set names others known otherKnown same includeUnmatched := by
    rw [classify_of_allKnown known, classify_of_allKnown otherKnown,
      MethodReport.narrow_congr same]
  same_names names others known respelled otherRespelled includeUnmatched := by
    have same (s : MethodSort) : MethodSort.Named names s ↔ MethodSort.Named others s :=
      ⟨(·.of_respelledIn respelled), (·.of_respelledIn otherRespelled)⟩
    rw [classify_of_allKnown known, classify_of_allKnown (known.of_respelledIn otherRespelled),
      MethodReport.narrow_congr same]
  matched sorts all classified := by
    obtain ⟨selected, selects, rfl⟩ := exists_of_classify_eq_ok classified
    have sameSelects : ClassificationSettings.selectedSorts { sorts } = .ok selected := selects
    rw [classify_eq_ok sameSelects, reports, reports, List.filter_filter]
    simp
  shared := classify_shared pool

theorem classify_narrows_scenario :
    ∃ pool, ofDefinitions Scenario.covariantReturn = .ok pool ∧
      pool.classify { sorts := some ["constructor", " Return_Type-bridge\t", "constructor"] } =
        pool.classify { sorts := some ["return-type-bridge", "CONSTRUCTOR"] } ∧
      (∃ reports, pool.classify { sorts := some ["return-type-bridge", "CONSTRUCTOR"] } = .ok reports ∧
        reports.map (·.sorts) = [[.constructor], [.constructor], [.returnTypeBridge]]) ∧
      pool.classify { sorts := some [] } = .ok [] ∧
      pool.classify { sorts := some ["method", " bogus", "worse"] } =
        .error (.unknownSort " bogus") := by
  obtain ⟨pool, accepted⟩ : ∃ pool, ofDefinitions Scenario.covariantReturn = .ok pool := ⟨_, rfl⟩
  have known : MethodSort.AllKnown ["constructor", " Return_Type-bridge\t", "constructor"] := by
    decide +kernel
  have otherKnown : MethodSort.AllKnown ["return-type-bridge", "CONSTRUCTOR"] := by
    decide +kernel
  have same : ∀ s, MethodSort.Named ["constructor", " Return_Type-bridge\t", "constructor"] s ↔
      MethodSort.Named ["return-type-bridge", "CONSTRUCTOR"] s := by
    intro s
    cases s <;> decide +kernel
  refine ⟨pool, accepted, (classify_narrows pool).same_set _ _ known otherKnown same false, ?_⟩
  cases accepted
  exact ⟨⟨_, rfl, by decide +kernel⟩, rfl, rfl⟩

end ClassPool

end BridgeMethods
