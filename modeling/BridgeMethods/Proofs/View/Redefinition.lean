import BridgeMethods.Proofs.Pool.Acceptance
import BridgeMethods.Proofs.View.Chain

/-!
# Hierarchies that are changed above a class

A definition means the same class in every list that accepts it.  So if a list of definitions is
changed, and only in classes that are above a certain one, then all that is below that class stays
as it was: the same views can be had, and they lead up to the class in the same steps.
-/

namespace BridgeMethods

/-- Among other definitions there are still those that are not above a class. -/
def ClassDef.ChangedAbove (className : String) (definitions others : List ClassDef) : Prop :=
  ∀ definition ∈ definitions,
    ¬ Relation.TransGen (Subclass definitions) className definition.name → definition ∈ others

/-- In another pool there are still the classes that are not above a class. -/
def ClassPool.ChangedAbove (className : String) (pool other : ClassPool) : Prop :=
  ∀ entry ∈ pool.classes,
    ¬ Relation.TransGen pool.Subclass className entry.name → entry ∈ other.classes

namespace ClassPool

variable {definitions others : List ClassDef} {pool other : ClassPool} {className : String}

/-- A definition means the same class among other definitions. -/
theorem Means.mem_classes_of_mem (means : pool.Means definitions) (otherMeans : other.Means others)
    {entry : ClassEntry} (member : entry ∈ pool.classes)
    (kept : ∀ definition ∈ definitions, definition.name = entry.name → definition ∈ others) :
    entry ∈ other.classes := by
  obtain ⟨definition, definitionMember, describes, doesExtend⟩ :=
    means.classes.exists_of_mem_right member
  obtain ⟨otherEntry, otherMember, otherDescribes, otherExtends⟩ :=
    otherMeans.classes.exists_of_mem_left (kept definition definitionMember describes.name.symm)
  rw [describes.unique otherDescribes doesExtend otherExtends]
  exact otherMember

theorem Means.changedAbove (means : pool.Means definitions) (otherMeans : other.Means others)
    (changed : ClassDef.ChangedAbove className definitions others) :
    pool.ChangedAbove className other := by
  intro entry member notAbove
  rw [means.subclass_eq] at notAbove
  refine means.mem_classes_of_mem otherMeans member fun definition definitionMember named => ?_
  exact changed definition definitionMember (named ▸ notAbove)

namespace ChangedAbove

variable {view parent ancestor : TypeView} {nearer farther otherFarther : List TypeView}

/-- A step up to a class that is still there is the same step. -/
theorem superType?_eq (changed : pool.ChangedAbove className other)
    (distinct : (other.classes.map (·.name)).Nodup)
    (above : pool.superType? view = some parent)
    (notAbove : ¬ Relation.TransGen pool.Subclass className parent.name) :
    other.superType? view = some parent := by
  obtain ⟨reference, extended, found, bindings⟩ := superType?_eq_some_iff.mp above
  have parentName : parent.entry.name = reference.name := by simpa using List.find?_some found
  have kept : parent.entry ∈ other.classes := changed _ (mem_of_superType? above) notAbove
  have otherFound : other.lookup? reference.name = some parent.entry :=
    (lookup?_eq_some_iff distinct).mpr ⟨kept, parentName⟩
  exact superType?_eq_some_iff.mpr ⟨reference, extended, otherFound, bindings⟩

theorem reachable (changed : pool.ChangedAbove className other)
    (distinct : (other.classes.map (·.name)).Nodup) (reachable : pool.Reachable view)
    (notAbove : ¬ Relation.TransGen pool.Subclass className view.name) :
    other.Reachable view := by
  induction reachable with
  | declaration member => exact .declaration (changed _ member notAbove)
  | superType viewReachable above ih =>
      have subclass := subclass_of_superType? viewReachable.entry_mem above
      exact .superType (ih fun viewAbove => notAbove (viewAbove.tail subclass))
        (changed.superType?_eq distinct above notAbove)
  | asDeclaration _ ih => exact .asDeclaration (ih notAbove)

/-- The way up to the class below all changes is the same way. -/
theorem climbs (changed : pool.ChangedAbove ancestor.name other) (acyclic : Acyclic pool.Subclass)
    (distinct : (other.classes.map (·.name)).Nodup) (member : view.entry ∈ pool.classes)
    (climbs : pool.Climbs view (nearer ++ ancestor :: farther))
    (otherClimbs : other.Climbs ancestor otherFarther) :
    other.Climbs view (nearer ++ ancestor :: otherFarther) := by
  induction nearer generalizing view with
  | nil =>
      cases climbs with
      | up above _ => exact .up (changed.superType?_eq distinct above (acyclic _)) otherClimbs
  | cons parent nearer ih =>
      cases climbs with
      | up above climbs =>
          have parentMember := mem_of_superType? above
          have parentBelow : pool.Below parent ancestor :=
            List.rel_of_pairwise_cons (climbs.pairwise_below parentMember) (by simp)
          have notAbove : ¬ Relation.TransGen pool.Subclass ancestor.name parent.name :=
            fun parentAbove => acyclic _ (parentAbove.trans parentBelow)
          exact .up (changed.superType?_eq distinct above notAbove) (ih parentMember climbs)

/-- Below all changes, the super types are the same up to the class in question. -/
theorem exists_superTypes_eq (changed : pool.ChangedAbove ancestor.name other)
    (acyclic : Acyclic pool.Subclass) (otherAcyclic : Acyclic other.Subclass)
    (distinct : (other.classes.map (·.name)).Nodup) (member : view.entry ∈ pool.classes)
    (split : pool.superTypes view = nearer ++ ancestor :: farther) :
    ∃ otherFarther, other.superTypes view = nearer ++ ancestor :: otherFarther := by
  have above : ancestor ∈ pool.superTypes view := by simp [split]
  have notAbove := not_above_of_mem_superTypes acyclic member above
  have ancestorMember := entry_mem_of_mem_superTypes acyclic member above
  have climbs := climbs_superTypes acyclic member
  rw [split] at climbs
  have otherClimbs := climbs_superTypes otherAcyclic (changed _ ancestorMember (acyclic _))
  exact ⟨other.superTypes ancestor, ((climbs_iff otherAcyclic (changed _ member notAbove)).mp
    (changed.climbs acyclic distinct member climbs otherClimbs)).symm⟩

end ChangedAbove

end ClassPool

end BridgeMethods
