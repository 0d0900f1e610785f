import BridgeMethods.Proofs.Pool.Acceptance

/-!
# Hierarchies side by side

Two lists of definitions that have no type name in common are accepted one after the other if each
of them is accepted by itself.  A list that leaves out the root is completed with it, so both
hierarchies have the same root, and it is the only class that they share.

That a pool is accepted is a matter of its parts.  What a class of a `PartOf` a pool refers to is in
the part again, and so the way up from there is the same in the part and in the whole pool.
-/

namespace BridgeMethods

/-- Two lists of definitions have no type name in common, and neither of them defines the root. -/
structure ClassDef.Independent (first second : List ClassDef) : Prop where
  namesApart : ∀ definition ∈ first, ∀ other ∈ second, definition.name ≠ other.name
  firstRootless : ∀ definition ∈ first, definition.name ≠ objectName
  secondRootless : ∀ definition ∈ second, definition.name ≠ objectName

/-- The root of a hierarchy whose definitions leave it out. -/
def ClassEntry.implicitRoot : ClassEntry where
  name := objectName
  isInterface := false
  flags := .ofModifiers [.public]
  typeParameters := []
  superReference := none
  methods := []

theorem ClassEntry.describes_implicitRoot :
    (ClassDef.ofClass objectName).asPublic.Describes .implicitRoot :=
  ⟨⟨rfl, rfl, rfl, .nil⟩, .nil⟩

theorem ClassDef.Extends.mono {definitions others : List ClassDef} {definition : ClassDef}
    {reference : Option SuperReference} (doesExtend : definition.Extends definitions reference)
    (subset : definitions ⊆ others) : definition.Extends others reference := by
  refine doesExtend.congr rfl rfl rfl rfl fun t reference refers => ?_
  cases refers with
  | raw member isClass => exact .raw (subset member) isClass
  | generic member isClass noWildcard sameLength =>
      exact .generic (subset member) isClass noWildcard sameLength

/-! ## Parts of a pool -/

/-- A pool is a part of another one, whose classes have distinct names: it has some of the classes,
and with a class the one that it refers to. -/
structure ClassPool.PartOf (part pool : ClassPool) : Prop where
  distinct : (pool.classes.map (·.name)).Nodup
  subset : part.classes ⊆ pool.classes
  closed : ∀ sub super, part.Subclass sub super → ∃ entry ∈ part.classes, entry.name = super

namespace ClassPool

variable {definitions first second : List ClassDef} {part otherPart pool : ClassPool}
  {sub super : String}

namespace PartOf

/-- A step up from a class of a part is one in the part. -/
theorem subclass_of (isPart : part.PartOf pool) (defined : ∃ entry ∈ part.classes, entry.name = sub)
    (subclass : pool.Subclass sub super) : part.Subclass sub super := by
  rcases defined with ⟨entry, member, rfl⟩
  rcases subclass with ⟨found, foundMember, sameName, extended⟩
  obtain rfl : found = entry :=
    List.inj_on_of_nodup_map isPart.distinct foundMember (isPart.subset member) sameName
  exact ⟨found, member, rfl, extended⟩

/-- The way up from a class of a part never leaves the part. -/
theorem above_of (isPart : part.PartOf pool) (defined : ∃ entry ∈ part.classes, entry.name = sub)
    (above : Relation.TransGen pool.Subclass sub super) :
    Relation.TransGen part.Subclass sub super := by
  induction above with
  | single subclass => exact .single (isPart.subclass_of defined subclass)
  | tail _ subclass ih =>
      obtain ⟨_, _, last⟩ := Relation.TransGen.tail'_iff.mp ih
      exact ih.tail (isPart.subclass_of (isPart.closed _ _ last) subclass)

/-- A pool is consistent if it is made up of consistent parts. -/
theorem consistent (isPart : part.PartOf pool) (otherIsPart : otherPart.PartOf pool)
    (covered : ∀ entry ∈ pool.classes, entry ∈ part.classes ∨ entry ∈ otherPart.classes)
    (partConsistent : part.Consistent) (otherConsistent : otherPart.Consistent) :
    pool.Consistent where
  acyclic := by
    intro name loop
    obtain ⟨_, ⟨entry, member, named, _⟩, _⟩ := Relation.TransGen.head'_iff.mp loop
    rcases covered entry member with inPart | inOther
    · exact partConsistent.acyclic name (isPart.above_of ⟨entry, inPart, named⟩ loop)
    · exact otherConsistent.acyclic name (otherIsPart.above_of ⟨entry, inOther, named⟩ loop)
  tokensDistinct := by
    intro entry member
    rcases covered entry member with inPart | inOther
    · exact partConsistent.tokensDistinct entry inPart
    · exact otherConsistent.tokensDistinct entry inOther

end PartOf

/-! ## Lists of definitions that leave out the root -/

/-- The root that a list leaves out is added after all that follows the list. -/
theorem withRoot_append (rootless : ∀ definition ∈ first, definition.name ≠ objectName) :
    withRoot (first ++ second) = first ++ withRoot second := by
  have noRoot : first.any (·.name = objectName) = false := by simpa using rootless
  rw [withRoot, withRoot, List.any_append, noRoot, Bool.false_or]
  split_ifs
  · rfl
  · rw [List.append_assoc]

theorem withRoot_eq_append (rootless : ∀ definition ∈ definitions, definition.name ≠ objectName) :
    withRoot definitions = definitions ++ [(ClassDef.ofClass objectName).asPublic] := by
  rw [withRoot, if_neg]
  simpa using rootless

end ClassPool

namespace ClassDef.Independent

open ClassPool (withRoot withRoot_append withRoot_eq_append mem_or_eq_of_mem_withRoot)

variable {first second : List ClassDef}

/-- Both lists are completed with the same root. -/
theorem withRoot_left_subset (independent : Independent first second) :
    withRoot first ⊆ withRoot (first ++ second) := by
  rw [withRoot_append independent.firstRootless, withRoot_eq_append independent.firstRootless,
    withRoot_eq_append independent.secondRootless]
  simp

theorem withRoot_right_subset (independent : Independent first second) :
    withRoot second ⊆ withRoot (first ++ second) := by
  rw [withRoot_append independent.firstRootless]
  exact List.subset_append_right _ _

theorem names_nodup (independent : Independent first second)
    (distinct : ((withRoot first).map (·.name)).Nodup)
    (otherDistinct : ((withRoot second).map (·.name)).Nodup) :
    ((withRoot (first ++ second)).map (·.name)).Nodup := by
  rw [withRoot_eq_append independent.firstRootless, List.map_append] at distinct
  rw [withRoot_append independent.firstRootless, List.map_append, List.nodup_append]
  refine ⟨distinct.of_append_left, otherDistinct, ?_⟩
  intro name inFirst other inSecond
  rcases List.mem_map.mp inFirst with ⟨definition, member, rfl⟩
  rcases List.mem_map.mp inSecond with ⟨otherDefinition, otherMember, rfl⟩
  rcases mem_or_eq_of_mem_withRoot otherMember with otherMember | rfl
  · exact independent.namesApart definition member otherDefinition otherMember
  · exact independent.firstRootless definition member

end ClassDef.Independent

/-! ## The pool of both lists -/

namespace ClassPool

variable {definitions first second : List ClassDef} {pool firstPool secondPool : ClassPool}

/-- The classes of two pools, the root of the first one left out. -/
def join (first second : ClassPool) : ClassPool :=
  ⟨first.classes.dropLast ++ second.classes⟩

/-- The root that a list of definitions is completed with is the last class of the pool. -/
theorem Means.exists_classes_eq (means : pool.Means (withRoot definitions))
    (rootless : ∀ definition ∈ definitions, definition.name ≠ objectName) :
    ∃ entries, pool.classes = entries ++ [.implicitRoot] ∧
      List.Forall₂ (fun definition entry => definition.Describes entry ∧
        definition.Extends (withRoot definitions) entry.superReference) definitions entries := by
  have classes := means.classes
  -- The definitions are split, not those among which super classes are looked for.
  nth_rewrite 2 [withRoot_eq_append rootless] at classes
  obtain ⟨entries, rest, split, described, rootDescribed⟩ := classes.exists_of_append_left
  obtain ⟨root, _, ⟨isRoot, rootExtends⟩, noMore, rfl⟩ :=
    List.forall₂_cons_left_iff.mp rootDescribed
  cases noMore
  have sameRoot : root = .implicitRoot :=
    isRoot.unique ClassEntry.describes_implicitRoot rootExtends
      (.root rfl rfl rfl : ClassDef.Extends (withRoot definitions) _ none)
  exact ⟨entries, sameRoot ▸ split, described⟩

section Join

variable (accepted : ofDefinitions first = .ok firstPool)
  (otherAccepted : ofDefinitions second = .ok secondPool)
  (independent : ClassDef.Independent first second)

include accepted otherAccepted independent

theorem means_join : (firstPool.join secondPool).Means (withRoot (first ++ second)) where
  distinct := independent.names_nodup (ofDefinitions_eq_ok_iff.mp accepted).1.distinct
    (ofDefinitions_eq_ok_iff.mp otherAccepted).1.distinct
  classes := by
    have means := (ofDefinitions_eq_ok_iff.mp accepted).1
    have otherMeans := (ofDefinitions_eq_ok_iff.mp otherAccepted).1
    obtain ⟨entries, classes, described⟩ := means.exists_classes_eq independent.firstRootless
    rw [join, classes, List.dropLast_concat]
    nth_rewrite 2 [withRoot_append independent.firstRootless]
    -- Each class has the super class that it had among fewer definitions.
    refine List.rel_append (described.imp fun _ _ => ?_) (otherMeans.classes.imp fun _ _ => ?_)
    · exact And.imp_right (·.mono independent.withRoot_left_subset)
    · exact And.imp_right (·.mono independent.withRoot_right_subset)

theorem partOf_join_left : firstPool.PartOf (firstPool.join secondPool) where
  distinct := (means_join accepted otherAccepted independent).names_nodup
  subset := by
    have means := (ofDefinitions_eq_ok_iff.mp accepted).1
    have otherMeans := (ofDefinitions_eq_ok_iff.mp otherAccepted).1
    obtain ⟨entries, classes, _⟩ := means.exists_classes_eq independent.firstRootless
    obtain ⟨others, otherClasses, _⟩ := otherMeans.exists_classes_eq independent.secondRootless
    rw [join, classes, otherClasses, List.dropLast_concat]
    simp
  closed := fun _ _ => (ofDefinitions_eq_ok_iff.mp accepted).1.exists_super

theorem partOf_join_right : secondPool.PartOf (firstPool.join secondPool) where
  distinct := (means_join accepted otherAccepted independent).names_nodup
  subset := List.subset_append_right _ _
  closed := fun _ _ => (ofDefinitions_eq_ok_iff.mp otherAccepted).1.exists_super

theorem consistent_join : (firstPool.join secondPool).Consistent := by
  have consistent := (ofDefinitions_eq_ok_iff.mp accepted).2
  have otherConsistent := (ofDefinitions_eq_ok_iff.mp otherAccepted).2
  have isPart := partOf_join_left accepted otherAccepted independent
  have otherIsPart := partOf_join_right accepted otherAccepted independent
  refine isPart.consistent otherIsPart (fun entry member => ?_) consistent otherConsistent
  exact (List.mem_append.mp member).imp_left fun inFirst => List.dropLast_subset _ inFirst

/-- Independent lists of definitions that are accepted are accepted one after the other. -/
theorem ofDefinitions_append :
    ofDefinitions (first ++ second) = .ok (firstPool.join secondPool) :=
  ofDefinitions_eq_ok_iff.mpr ⟨means_join accepted otherAccepted independent,
    consistent_join accepted otherAccepted independent⟩

end Join

end ClassPool

end BridgeMethods
