import BridgeMethods.Proofs.View.Names

/-!
# Chains of super types

Super types are followed from view to view until one has none.  `ClassPool.Climbs` says this without
a limit on the number of steps, so that it holds of no chain if the way up does not end; and
`ClassPool.Meets` says in the same manner how the search for cycles follows super classes.

The functions that compute either of them count their steps.  The count is never what stops them:
the search ends in every pool, since a pool has finitely many names, and super types end in every
pool without cycles.
-/

namespace BridgeMethods

namespace ClassPool

/-- All super types of a view, from the nearest on: they are followed until a view has none. -/
inductive Climbs (pool : ClassPool) : TypeView → List TypeView → Prop
  | top {view : TypeView} : pool.superType? view = none → Climbs pool view []
  | up {view parent : TypeView} {above : List TypeView} : pool.superType? view = some parent →
      Climbs pool parent above → Climbs pool view (parent :: above)

/-- Super classes are followed until there is none, or until a class has been visited before; this
class is then the result. -/
inductive Meets (pool : ClassPool) : List String → ClassEntry → Option String → Prop
  | again {visited : List String} {entry : ClassEntry} : entry.name ∈ visited →
      Meets pool visited entry (some entry.name)
  | top {visited : List String} {entry : ClassEntry} : entry.name ∉ visited →
      pool.superClass? entry = none → Meets pool visited entry none
  | up {visited : List String} {entry parent : ClassEntry} {met : Option String} :
      entry.name ∉ visited → pool.superClass? entry = some parent →
      Meets pool (entry.name :: visited) parent met → Meets pool visited entry met

variable {pool : ClassPool}

/-! ## The search for cycles -/

theorem Meets.unique {visited : List String} {entry : ClassEntry} {met other : Option String}
    (meets : pool.Meets visited entry met) (meetsOther : pool.Meets visited entry other) :
    met = other := by
  induction meets with
  | again repeated =>
      cases meetsOther with
      | again _ => rfl
      | top fresh _ | up fresh _ _ => exact absurd repeated fresh
  | top fresh isTop =>
      cases meetsOther with
      | again repeated => exact absurd repeated fresh
      | top _ _ => rfl
      | up _ above _ => rw [isTop] at above; contradiction
  | up fresh above _ ih =>
      cases meetsOther with
      | again repeated => exact absurd repeated fresh
      | top _ isTop => rw [isTop] at above; contradiction
      | up _ otherAbove meetsOther =>
          obtain rfl := Option.some.inj (above.symm.trans otherAbove)
          exact ih meetsOther

/-- As long as each name can still be met for the first time, the count is not what ends the
search.  When nothing is left of the count, all names have been visited. -/
theorem Trail.meets {budget : Nat} {visited : List String} {entry : ClassEntry}
    (trail : pool.Trail visited entry) (enough : pool.size ≤ budget + visited.length) :
    pool.Meets visited entry (pool.firstRepeated? budget visited entry) := by
  induction budget generalizing visited entry with
  | zero =>
      apply Meets.again
      by_contra fresh
      have shorter := trail.length_lt fresh
      omega
  | succ budget ih =>
      rw [firstRepeated?]
      split_ifs with repeated
      · exact .again repeated
      · cases above : pool.superClass? entry with
        | none => exact .top repeated above
        | some parent =>
            apply Meets.up repeated above
            apply ih (trail.step repeated above)
            rw [List.length_cons]
            omega

theorem meets_iff {entry : ClassEntry} (member : entry ∈ pool.classes) {met : Option String} :
    pool.Meets [] entry met ↔ met = pool.firstRepeated? pool.size [] entry := by
  have meets : pool.Meets [] entry (pool.firstRepeated? pool.size [] entry) :=
    Trail.meets (.start member) (by simp)
  constructor
  · intro other
    exact other.unique meets
  · rintro rfl
    exact meets

/-! ## Super types -/

/-- The class of the first view is below that of the second. -/
def Below (pool : ClassPool) (sub super : TypeView) : Prop :=
  Relation.TransGen pool.Subclass sub.name super.name

instance : Trans pool.Below pool.Below pool.Below :=
  ⟨Relation.TransGen.trans⟩

namespace Climbs

variable {view : TypeView} {chain other : List TypeView}

theorem unique (climbs : pool.Climbs view chain) (climbsOther : pool.Climbs view other) :
    chain = other := by
  induction climbs generalizing other with
  | top isTop =>
      cases climbsOther with
      | top _ => rfl
      | up above _ => rw [isTop] at above; contradiction
  | up above _ ih =>
      cases climbsOther with
      | top isTop => rw [isTop] at above; contradiction
      | up otherAbove climbsOther =>
          obtain rfl := Option.some.inj (above.symm.trans otherAbove)
          rw [ih climbsOther]

theorem entry_mem (climbs : pool.Climbs view chain) (member : view.entry ∈ pool.classes) :
    ∀ super ∈ view :: chain, super.entry ∈ pool.classes := by
  induction climbs with
  | top _ => exact List.forall_mem_singleton.mpr member
  | up above _ ih => exact List.forall_mem_cons.mpr ⟨member, ih (mem_of_superType? above)⟩

/-- Every view is below all those that follow it. -/
theorem pairwise_below (climbs : pool.Climbs view chain) (member : view.entry ∈ pool.classes) :
    (view :: chain).Pairwise pool.Below := by
  rw [← List.isChain_iff_pairwise]
  induction climbs with
  | top _ => exact .singleton _
  | up above _ ih =>
      exact .cons_cons (.single (subclass_of_superType? member above)) (ih (mem_of_superType? above))

theorem names_nodup (climbs : pool.Climbs view chain) (acyclic : Acyclic pool.Subclass)
    (member : view.entry ∈ pool.classes) : ((view :: chain).map (·.name)).Nodup := by
  refine List.pairwise_map.mpr ((climbs.pairwise_below member).imp ?_)
  intro sub super below same
  rw [Below, same] at below
  exact acyclic _ below

theorem length_lt (climbs : pool.Climbs view chain) (acyclic : Acyclic pool.Subclass)
    (member : view.entry ∈ pool.classes) : chain.length < pool.size := by
  have names_subset : (view :: chain).map (·.name) ⊆ pool.classes.map (·.name) := by
    intro name nameMember
    rcases List.mem_map.mp nameMember with ⟨super, superMember, rfl⟩
    exact List.mem_map.mpr ⟨super.entry, climbs.entry_mem member super superMember, rfl⟩
  have nodup := climbs.names_nodup acyclic member
  have shorter := (List.subperm_of_subset nodup names_subset).length_le
  rw [List.length_map, List.length_map] at shorter
  exact shorter

end Climbs

/-- The limit on super types is not reached before the last one is. -/
theorem Trail.climbs (acyclic : Acyclic pool.Subclass) {limit : Nat} {visited : List String}
    {view : TypeView} (trail : pool.Trail visited view.entry)
    (enough : pool.size ≤ limit + visited.length) :
    pool.Climbs view (pool.superTypesUpTo limit view) := by
  have fresh := trail.not_mem acyclic
  induction limit generalizing visited view with
  | zero =>
      have shorter := trail.length_lt fresh
      omega
  | succ limit ih =>
      rw [superTypesUpTo]
      cases above : pool.superType? view with
      | none => exact .top above
      | some parent =>
          have entryAbove : pool.superClass? view.entry = some parent.entry := by
            rw [← map_entry_superType?, above, Option.map_some]
          have parentTrail := trail.step fresh entryAbove
          refine .up above (ih parentTrail ?_ (parentTrail.not_mem acyclic))
          rw [List.length_cons]
          omega

theorem climbs_superTypes (acyclic : Acyclic pool.Subclass) {view : TypeView}
    (member : view.entry ∈ pool.classes) : pool.Climbs view (pool.superTypes view) :=
  Trail.climbs acyclic (.start member) (by simp)

theorem climbs_iff (acyclic : Acyclic pool.Subclass) {view : TypeView}
    (member : view.entry ∈ pool.classes) {chain : List TypeView} :
    pool.Climbs view chain ↔ chain = pool.superTypes view := by
  have climbs := climbs_superTypes acyclic member
  constructor
  · intro other
    exact other.unique climbs
  · rintro rfl
    exact climbs

section Ancestor

variable (acyclic : Acyclic pool.Subclass) {view ancestor : TypeView}
  (member : view.entry ∈ pool.classes) (above : ancestor ∈ pool.superTypes view)

include acyclic member above

theorem entry_mem_of_mem_superTypes : ancestor.entry ∈ pool.classes :=
  (climbs_superTypes acyclic member).entry_mem member ancestor (List.mem_cons_of_mem view above)

theorem below_of_mem_superTypes : pool.Below view ancestor :=
  List.rel_of_pairwise_cons ((climbs_superTypes acyclic member).pairwise_below member) above

/-- What is below a class is not above it. -/
theorem not_above_of_mem_superTypes :
    ¬ Relation.TransGen pool.Subclass ancestor.name view.name :=
  fun viewAbove => acyclic _ (viewAbove.trans (below_of_mem_superTypes acyclic member above))

end Ancestor

end ClassPool

end BridgeMethods
