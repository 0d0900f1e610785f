import BridgeMethods.Proofs.View.Correspondence

/-!
# Pools that look the same from a class on

The super types of a class may look the same in two pools whatever else the pools hold.  A
`Simulation` relates classes of the one to classes of the other that look alike and have related
super classes.  Then a step up from views of related classes leads to views of related classes.
-/

namespace BridgeMethods

/-- Two views show related classes with the same type arguments. -/
structure TypeView.Related (related : ClassEntry → ClassEntry → Prop) (view other : TypeView) :
    Prop where
  entry : related view.entry other.entry
  bindings : view.bindings = other.bindings

/-- Related classes look alike, and what they refer to as super class is related again. -/
structure ClassPool.Simulation (pool other : ClassPool)
    (related : ClassEntry → ClassEntry → Prop) : Prop where
  header : ∀ entry entry', related entry entry' →
    entry.toClassHeader.Alike entry'.toClassHeader
  superReference : ∀ entry entry', related entry entry' →
    entry.superReference = entry'.superReference
  target : ∀ entry entry', related entry entry' → ∀ reference,
    entry.superReference = some reference →
      Option.Rel related (pool.lookup? reference.name) (other.lookup? reference.name)

namespace ClassPool.Simulation

variable {pool other : ClassPool} {related : ClassEntry → ClassEntry → Prop}
  {view otherView : TypeView}

theorem alike (simulation : pool.Simulation other related)
    (start : view.Related related otherView) : view.Alike otherView :=
  ⟨simulation.header _ _ start.entry, start.bindings⟩

/-- A step up from related views. -/
theorem stepsRelated (simulation : pool.Simulation other related) :
    pool.StepsRelated other (TypeView.Related related) := by
  intro view otherView start
  have erase_eq : view.erase none = otherView.erase none :=
    (simulation.alike start).erase_eq rfl
  apply superType?_rel
  rw [← simulation.superReference _ _ start.entry]
  cases extended : view.entry.superReference with
  | none => exact .none
  | some reference =>
      apply Option.Rel.some
      apply (simulation.target _ _ start.entry reference extended).imp
      intro target otherTarget targets
      refine ⟨targets, ?_⟩
      rw [TypeView.superView, TypeView.superView, (simulation.header _ _ targets).typeParameters,
        erase_eq]

theorem superTypes (simulation : pool.Simulation other related)
    (acyclic : Acyclic pool.Subclass) (otherAcyclic : Acyclic other.Subclass)
    (member : view.entry ∈ pool.classes) (otherMember : otherView.entry ∈ other.classes)
    (start : view.Related related otherView) :
    List.Forall₂ (TypeView.Related related) (pool.superTypes view)
      (other.superTypes otherView) :=
  simulation.stepsRelated.superTypes acyclic otherAcyclic member otherMember start

end ClassPool.Simulation

end BridgeMethods
