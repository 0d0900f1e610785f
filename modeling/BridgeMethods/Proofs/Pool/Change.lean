import BridgeMethods.Proofs.Pool.Acceptance

/-!
# Changed definitions

Other classes see no more of a class that they extend than its name, whether it is an interface, and
how many type parameters it has.  So the definition of a class can be exchanged for another one as
long as these stay, and all other definitions mean the same classes.  What remains to be checked of
the new pool is that no class is above itself and that the tokens of the methods are distinct.
-/

namespace BridgeMethods

/-- Two definitions are the same as something to extend. -/
structure ClassDef.SameRole (definition other : ClassDef) : Prop where
  name : definition.name = other.name
  kind : definition.kind = other.kind
  arity : definition.typeParameters.length = other.typeParameters.length

/-- Two classes have one name and super classes of one name, and if the tokens of the methods are
distinct in the first, then they are in the second. -/
structure ClassEntry.Congruent (entry other : ClassEntry) : Prop where
  name : entry.name = other.name
  superName : entry.superReference.map (·.name) = other.superReference.map (·.name)
  tokensDistinct : entry.TokensDistinct → other.TokensDistinct

theorem ClassDef.SameRole.refl (definition : ClassDef) : definition.SameRole definition :=
  ⟨rfl, rfl, rfl⟩

theorem SuperReference.Refers.congr {definitions others : List ClassDef}
    (roles : List.Forall₂ ClassDef.SameRole definitions others) {t : TypeExpr}
    {reference : SuperReference} (refers : Refers definitions t reference) :
    Refers others t reference := by
  cases refers with
  | raw member isClass =>
      rcases roles.exists_of_mem_left member with ⟨other, otherMember, role⟩
      rw [role.name]
      exact .raw otherMember (role.kind ▸ isClass)
  | generic member isClass noWildcard sameLength =>
      rcases roles.exists_of_mem_left member with ⟨other, otherMember, role⟩
      rw [role.name]
      exact .generic otherMember (role.kind ▸ isClass) noWildcard (sameLength.trans role.arity)

namespace ClassPool

variable {definitions others : List ClassDef} {pool other : ClassPool}
  {change : ClassDef → ClassDef → Prop} {related : ClassEntry → ClassEntry → Prop}

/-- Definitions that correspond have the root added at the same time. -/
theorem forall₂_withRoot (changed : List.Forall₂ change definitions others)
    (names : ∀ definition other, change definition other → definition.name = other.name)
    (refl : ∀ definition, change definition definition) :
    List.Forall₂ change (withRoot definitions) (withRoot others) := by
  have sameNames : definitions.any (·.name = objectName) = others.any (·.name = objectName) :=
    changed.any_eq fun definition other same => by rw [names definition other same]
  rw [withRoot, withRoot, sameNames]
  split_ifs
  · exact changed
  · exact List.rel_append changed (.cons (refl _) .nil)

theorem Means.exists_changed (means : pool.Means definitions)
    (changed : List.Forall₂ change definitions others)
    (names : ∀ definition other, change definition other → definition.name = other.name)
    (each : ∀ definition other, change definition other →
      ∀ entry ∈ pool.classes, definition.Describes entry →
        definition.Extends definitions entry.superReference →
        ∃ otherEntry : ClassEntry, other.Describes otherEntry ∧
          other.Extends others otherEntry.superReference ∧ related entry otherEntry) :
    ∃ other : ClassPool, other.Means others ∧
      List.Forall₂ related pool.classes other.classes := by
  have sameNames : definitions.map (·.name) = others.map (·.name) := changed.map_eq_map names
  have classes : List.Forall₂ (fun definition entry => entry ∈ pool.classes ∧
      definition.Describes entry ∧ definition.Extends definitions entry.superReference)
      definitions pool.classes :=
    means.classes.imp_of_mem fun _ _ entry member means => ⟨member, means⟩
  have exists_entry : ∀ (definition other : ClassDef) (entry : ClassEntry),
      change definition other →
      (entry ∈ pool.classes ∧ definition.Describes entry ∧
        definition.Extends definitions entry.superReference) →
        ∃ otherEntry : ClassEntry,
          (other.Describes otherEntry ∧ other.Extends others otherEntry.superReference) ∧
          related entry otherEntry := by
    rintro definition other entry same ⟨member, describes, doesExtend⟩
    obtain ⟨otherEntry, otherDescribes, otherExtends, holds⟩ :=
      each definition other same entry member describes doesExtend
    exact ⟨otherEntry, ⟨otherDescribes, otherExtends⟩, holds⟩
  obtain ⟨otherClasses, described, entries⟩ := changed.exists_fourth classes exists_entry
  exact ⟨⟨otherClasses⟩, ⟨sameNames ▸ means.distinct, described⟩, entries⟩

theorem Consistent.congr
    (congruent : List.Forall₂ ClassEntry.Congruent pool.classes other.classes)
    (consistent : pool.Consistent) : other.Consistent where
  acyclic := by
    have subclass : other.Subclass ≤ pool.Subclass := by
      rintro _ super ⟨otherEntry, otherMember, rfl, otherReference, otherExtended, rfl⟩
      rcases congruent.exists_of_mem_right otherMember with ⟨entry, member, same⟩
      have superName := same.superName
      rw [otherExtended, Option.map_some, Option.map_eq_some_iff] at superName
      rcases superName with ⟨reference, extended, named⟩
      exact ⟨entry, member, same.name, reference, extended, named⟩
    intro name loop
    exact consistent.acyclic name (Relation.TransGen.mono subclass name name loop)
  tokensDistinct := by
    intro otherEntry otherMember
    rcases congruent.exists_of_mem_right otherMember with ⟨entry, member, same⟩
    exact same.tokensDistinct (consistent.tokensDistinct entry member)

end ClassPool

/-! ## One class defined anew -/

/-- A definition stays as it was, or it is the one that is exchanged. -/
def ClassDef.Exchanged (definition exchanged old new : ClassDef) : Prop :=
  old = new ∨ old = definition ∧ new = exchanged

theorem ClassDef.Exchanged.sameRole {definition exchanged old new : ClassDef}
    (change : Exchanged definition exchanged old new) (role : definition.SameRole exchanged) :
    old.SameRole new := by
  rcases change with rfl | ⟨rfl, rfl⟩
  · exact .refl old
  · exact role

theorem ClassDef.forall₂_exchanged (before after : List ClassDef)
    (definition exchanged : ClassDef) :
    List.Forall₂ (Exchanged definition exchanged) (before ++ definition :: after)
      (before ++ exchanged :: after) := by
  have unchanged (definitions : List ClassDef) :
      List.Forall₂ (Exchanged definition exchanged) definitions definitions :=
    List.forall₂_same.mpr fun _ _ => .inl rfl
  exact List.rel_append (unchanged before) (.cons (.inr ⟨rfl, rfl⟩) (unchanged after))

namespace ClassPool

variable {before after : List ClassDef} {definition exchanged : ClassDef} {pool : ClassPool}
  {related : ClassEntry → ClassEntry → Prop}

/-- If the definition of one class is exchanged, the list is still accepted, and its classes are
related to those it had. -/
theorem ofDefinitions_exchanged
    (accepted : ofDefinitions (before ++ definition :: after) = .ok pool)
    (role : definition.SameRole exchanged) (refl : ∀ entry ∈ pool.classes, related entry entry)
    (each : ∀ definitions others, (∀ t reference, SuperReference.Refers definitions t reference →
        SuperReference.Refers others t reference) →
      ∀ entry ∈ pool.classes, definition.Describes entry →
        definition.Extends definitions entry.superReference →
        ∃ otherEntry : ClassEntry, exchanged.Describes otherEntry ∧
          exchanged.Extends others otherEntry.superReference ∧ related entry otherEntry)
    (congruent : ∀ entry ∈ pool.classes, ∀ otherEntry, related entry otherEntry →
      entry.Congruent otherEntry) :
    ∃ other, ofDefinitions (before ++ exchanged :: after) = .ok other ∧
      List.Forall₂ related pool.classes other.classes := by
  obtain ⟨means, consistent⟩ := ofDefinitions_eq_ok_iff.mp accepted
  have changed : List.Forall₂ (ClassDef.Exchanged definition exchanged)
      (withRoot (before ++ definition :: after)) (withRoot (before ++ exchanged :: after)) :=
    forall₂_withRoot (ClassDef.forall₂_exchanged before after definition exchanged)
      (fun _ _ change => (change.sameRole role).name) fun _ => .inl rfl
  have refers : ∀ t reference,
      SuperReference.Refers (withRoot (before ++ definition :: after)) t reference →
        SuperReference.Refers (withRoot (before ++ exchanged :: after)) t reference :=
    fun t reference refers => refers.congr (changed.imp fun _ _ change => change.sameRole role)
  have exists_entry : ∀ old new, ClassDef.Exchanged definition exchanged old new →
      ∀ entry ∈ pool.classes, old.Describes entry →
        old.Extends (withRoot (before ++ definition :: after)) entry.superReference →
        ∃ otherEntry : ClassEntry, new.Describes otherEntry ∧
          new.Extends (withRoot (before ++ exchanged :: after)) otherEntry.superReference ∧
          related entry otherEntry := by
    rintro old new (rfl | ⟨rfl, rfl⟩) entry member describes doesExtend
    · exact ⟨entry, describes, doesExtend.congr rfl rfl rfl rfl refers, refl entry member⟩
    · exact each _ _ refers entry member describes doesExtend
  obtain ⟨other, otherMeans, entries⟩ := means.exists_changed changed
    (fun _ _ change => (change.sameRole role).name) exists_entry
  have congruent : List.Forall₂ ClassEntry.Congruent pool.classes other.classes :=
    entries.imp_of_mem fun entry member otherEntry _ => congruent entry member otherEntry
  exact ⟨other, ofDefinitions_eq_ok_iff.mpr ⟨otherMeans, consistent.congr congruent⟩, entries⟩

end ClassPool

end BridgeMethods
