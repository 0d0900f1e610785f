import BridgeMethods.Proofs.Classification.Selection
import BridgeMethods.Settings.Discovery
import BridgeMethods.Settings.Override

/-!
# Settings that options override

Settings name sorts and a format, and names can be unknown.  They are checked where the text of a
settings file is read; the defaults name nothing, and options name sorts by the names that sorts
have.  So the names are known when the settings that options have overridden are used.
-/

namespace BridgeMethods

/-- Every name in settings is known: those of the sorts, and that of the format. -/
structure Settings.Accepted (settings : Settings) : Prop where
  sorts : ∃ selected, settings.classification.selectedSorts = .ok selected
  format : ∀ text, settings.defaultFormat? = some text →
    ∃ format, OutputFormat.parse text = .ok format

namespace Settings

variable {settings : Settings} {options : ClassifyOptions}

theorem accepted_default : Accepted {} :=
  ⟨⟨_, rfl⟩, nofun⟩

theorem accepted_of_validate {checked : Settings} (valid : settings.validate = .ok checked) :
    checked.Accepted := by
  obtain ⟨selected, selects, valid⟩ := Except.bind_eq_ok_iff.mp valid
  cases named : settings.defaultFormat? with
  | none =>
      rw [named] at valid
      cases valid
      exact ⟨⟨selected, selects⟩, fun text given => by rw [named] at given; contradiction⟩
  | some text =>
      cases known : OutputFormat.parse text with
      | error error =>
          simp only [named, known] at valid
          cases valid
      | ok format =>
          simp only [named, known] at valid
          cases valid
          refine ⟨⟨selected, selects⟩, fun other given => ?_⟩
          obtain rfl := Option.some.inj (named.symm.trans given)
          exact ⟨format, known⟩

theorem accepted_of_parse {source : String} (parsed : parse source = .ok settings) :
    settings.Accepted := by
  unfold parse at parsed
  split at parsed
  · exact accepted_of_validate parsed
  · contradiction

theorem accepted_ofText (source : String) : (ofText source).Accepted := by
  unfold ofText
  split
  · exact accepted_of_parse ‹_›
  · exact accepted_default

/-- Sorts are read back from their names, so those of the options are selected. -/
theorem selectedSorts_override_of_some {sorts : List MethodSort}
    (named : options.sorts = some sorts) :
    (settings.override options).classification.selectedSorts = .ok (MethodSort.inOrder sorts) := by
  have given : (settings.override options).classification.sorts =
      some (sorts.map MethodSort.name) := by
    simp only [override, classification, Option.getD_some, named]
  refine ClassificationSettings.selectedSorts_eq_ok given ?_
  rw [List.forall₂_map_left_iff, List.forall₂_same]
  exact fun s _ => s.parse_name

theorem selectedSorts_override_of_none (unnamed : options.sorts = none) :
    (settings.override options).classification.selectedSorts =
      settings.classification.selectedSorts := by
  simp only [override, classification, Option.getD_some, ClassificationSettings.selectedSorts,
    unnamed]

theorem override_idempotent (settings : Settings) (options : ClassifyOptions) :
    (settings.override options).override options = settings.override options := by
  cases sorts : options.sorts <;> cases jobs : options.jobs <;>
    simp [override, classification, parallel, sorts, jobs]

/-- What settings become when options have overridden them. -/
structure Merges (settings : Settings) (options : ClassifyOptions) (merged : Settings) : Prop where
  /-- The names of the sorts and of the format are known. -/
  selects : ∃ selected, merged.classification.selectedSorts = .ok selected
  hasFormat : ∃ format, merged.format options = .ok format
  /-- The options have nothing to add to what they have overridden. -/
  idempotent : merged.override options = merged
  output : merged.output? = settings.output?
  sorts_of_options : ∀ sorts, options.sorts = some sorts →
    merged.classification.selectedSorts = .ok (MethodSort.inOrder sorts)
  sorts_of_settings : options.sorts = none →
    merged.classification.selectedSorts = settings.classification.selectedSorts
  /-- Unmatched methods are included if the settings or the options ask for them. -/
  includeUnmatched : merged.classification.includeUnmatched = true ↔
    settings.classification.includeUnmatched = true ∨ options.includeUnmatched = true
  /-- Work is done in parallel if the settings allow it and the options do not forbid it. -/
  parallel : merged.parallel.enabled = true ↔
    settings.parallel.enabled = true ∧ options.noParallel = false

theorem Accepted.merges (accepted : settings.Accepted) (options : ClassifyOptions) :
    settings.Merges options (settings.override options) where
  selects := by
    cases given : options.sorts with
    | none =>
        rw [selectedSorts_override_of_none given]
        exact accepted.sorts
    | some sorts => exact ⟨_, selectedSorts_override_of_some given⟩
  hasFormat := by
    have sameFormat : (settings.override options).defaultFormat? = settings.defaultFormat? := rfl
    rw [Settings.format, sameFormat]
    cases options.format with
    | some format => exact ⟨format, rfl⟩
    | none =>
        cases named : settings.defaultFormat? with
        | none => exact ⟨.terminal, rfl⟩
        | some text => exact accepted.format text named
  idempotent := override_idempotent settings options
  output := rfl
  sorts_of_options _ := selectedSorts_override_of_some
  sorts_of_settings := selectedSorts_override_of_none
  includeUnmatched := by simp [override, classification]
  parallel := by simp [override, Settings.parallel]

end Settings

end BridgeMethods
