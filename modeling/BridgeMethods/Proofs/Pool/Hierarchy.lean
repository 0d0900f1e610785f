import BridgeMethods.Proofs.Pool.Description
import Mathlib.Data.List.Perm.Subperm
import Mathlib.Logic.Relation

/-!
# The hierarchy of a pool

Super classes lead from class to class.  They are followed with a budget, but a pool whose classes
have distinct names is accepted exactly if no class is above itself, and that is a property of the
relation alone.

The last part says which pools are built from a list of definitions, without the readers and
without the checks.
-/

namespace BridgeMethods

/-- The first name is that of a class whose super class has the second name. -/
def ClassPool.Subclass (pool : ClassPool) (sub super : String) : Prop :=
  ∃ entry ∈ pool.classes, entry.name = sub ∧
    ∃ reference, entry.superReference = some reference ∧ reference.name = super

/-- No class of a relation between classes is above itself. -/
def Acyclic (subclass : String → String → Prop) : Prop :=
  ∀ name, ¬ Relation.TransGen subclass name name

namespace ClassPool

variable {pool : ClassPool}

theorem lookup?_eq_some_iff (distinct : (pool.classes.map (·.name)).Nodup) {name : String}
    {entry : ClassEntry} :
    pool.lookup? name = some entry ↔ entry ∈ pool.classes ∧ entry.name = name :=
  List.find?_key_eq_some_iff distinct

theorem lookup?_eq_none_iff {name : String} :
    pool.lookup? name = none ↔ ∀ entry ∈ pool.classes, entry.name ≠ name := by
  simp [lookup?]

/-- The way up from a view: to the class that it refers to, whose type parameters are bound to the
erased arguments. -/
theorem superType?_eq_some_iff {view parent : TypeView} :
    pool.superType? view = some parent ↔
      ∃ reference, view.entry.superReference = some reference ∧
        pool.lookup? reference.name = some parent.entry ∧
        parent.bindings = (parent.entry.typeParameters.map (·.name)).zip
          (reference.arguments.map (view.erase none)) := by
  rw [superType?, Option.bind_eq_bind, Option.bind_eq_some_iff]
  refine exists_congr fun reference => and_congr_right fun _ => ?_
  rw [Option.bind_eq_bind, Option.bind_eq_some_iff]
  constructor
  · rintro ⟨entry, found, same⟩
    obtain rfl := Option.some.inj same
    exact ⟨found, rfl⟩
  · rcases parent with ⟨entry, bindings⟩
    rintro ⟨found, bound⟩
    exact ⟨entry, found, congrArg (fun bindings => some (TypeView.mk entry bindings)) bound.symm⟩

theorem mem_of_superType? {view parent : TypeView} (above : pool.superType? view = some parent) :
    parent.entry ∈ pool.classes := by
  rcases superType?_eq_some_iff.mp above with ⟨_, _, found, _⟩
  exact List.mem_of_find?_eq_some found

/-- Views lead to the classes that super classes lead to. -/
theorem map_entry_superType? (pool : ClassPool) (view : TypeView) :
    (pool.superType? view).map (·.entry) = pool.superClass? view.entry := by
  rw [superType?, superClass?]
  cases view.entry.superReference with
  | none => rfl
  | some reference =>
      simp only [Option.bind_eq_bind, Option.bind_some]
      cases pool.lookup? reference.name <;> rfl

theorem mem_of_superClass? {entry parent : ClassEntry}
    (above : pool.superClass? entry = some parent) : parent ∈ pool.classes := by
  rcases Option.bind_eq_some_iff.mp above with ⟨reference, _, found⟩
  exact List.mem_of_find?_eq_some found

theorem subclass_of_superClass? {entry parent : ClassEntry} (member : entry ∈ pool.classes)
    (above : pool.superClass? entry = some parent) : pool.Subclass entry.name parent.name := by
  rcases Option.bind_eq_some_iff.mp above with ⟨reference, extended, found⟩
  have parentName : parent.name = reference.name := by simpa using List.find?_some found
  exact ⟨entry, member, rfl, reference, extended, parentName.symm⟩

theorem subclass_of_superType? {view parent : TypeView} (member : view.entry ∈ pool.classes)
    (above : pool.superType? view = some parent) : pool.Subclass view.name parent.name := by
  apply subclass_of_superClass? member
  rw [← map_entry_superType?, above, Option.map_some]

/-! ## Cycles -/

/-- Above a class from which no class is met twice there are finitely many classes. -/
theorem acc_of_firstRepeated?_eq_none (distinct : (pool.classes.map (·.name)).Nodup)
    {budget : Nat} {visited : List String} {entry : ClassEntry} (member : entry ∈ pool.classes)
    (none_met : pool.firstRepeated? budget visited entry = none) :
    Acc (fun super sub => pool.Subclass sub super) entry.name := by
  induction budget generalizing visited entry with
  | zero => contradiction
  | succ budget ih =>
      simp only [firstRepeated?] at none_met
      split_ifs at none_met with repeated
      refine ⟨_, fun super subclass => ?_⟩
      rcases subclass with ⟨entry', member', same, reference, extended, rfl⟩
      obtain rfl : entry' = entry := List.inj_on_of_nodup_map distinct member' member same
      cases found : pool.lookup? reference.name with
      | none =>
          refine ⟨_, fun _ ⟨other, otherMember, otherName, _⟩ => ?_⟩
          exact absurd otherName (lookup?_eq_none_iff.mp found other otherMember)
      | some parent =>
          rcases (lookup?_eq_some_iff distinct).mp found with ⟨parentMember, parentName⟩
          have above : pool.superClass? entry' = some parent := by
            rw [superClass?, extended, Option.bind_some, found]
          rw [above, Option.bind_some] at none_met
          exact parentName ▸ ih parentMember none_met

theorem not_transGen_self_of_acc {subclass : String → String → Prop} {name : String}
    (finite : Acc (fun super sub => subclass sub super) name) :
    ¬ Relation.TransGen subclass name name := by
  induction finite with
  | intro name _ ih =>
      intro loop
      rcases Relation.TransGen.head'_iff.mp loop with ⟨super, first, rest⟩
      exact ih super first (.tail' rest first)

/-- Super classes have been followed from class to class up to a class, without coming back. -/
structure Trail (pool : ClassPool) (visited : List String) (entry : ClassEntry) : Prop where
  member : entry ∈ pool.classes
  nodup : visited.Nodup
  visited_subset : visited ⊆ pool.classes.map (·.name)
  below : ∀ name ∈ visited, Relation.TransGen pool.Subclass name entry.name

namespace Trail

variable {visited : List String} {entry : ClassEntry}

theorem start (member : entry ∈ pool.classes) : pool.Trail [] entry :=
  ⟨member, .nil, List.nil_subset _, by simp⟩

theorem not_mem (acyclic : Acyclic pool.Subclass) (trail : pool.Trail visited entry) :
    entry.name ∉ visited :=
  fun repeated => acyclic _ (trail.below _ repeated)

theorem nodup_cons (trail : pool.Trail visited entry) (fresh : entry.name ∉ visited) :
    (entry.name :: visited).Nodup :=
  List.nodup_cons.mpr ⟨fresh, trail.nodup⟩

theorem cons_subset (trail : pool.Trail visited entry) :
    entry.name :: visited ⊆ pool.classes.map (·.name) :=
  List.cons_subset.mpr ⟨List.mem_map.mpr ⟨entry, trail.member, rfl⟩, trail.visited_subset⟩

theorem length_lt (trail : pool.Trail visited entry) (fresh : entry.name ∉ visited) :
    visited.length < pool.size := by
  have shorter := (List.subperm_of_subset (trail.nodup_cons fresh) trail.cons_subset).length_le
  rw [List.length_cons, List.length_map] at shorter
  exact shorter

theorem step (trail : pool.Trail visited entry) (fresh : entry.name ∉ visited)
    {parent : ClassEntry} (above : pool.superClass? entry = some parent) :
    pool.Trail (entry.name :: visited) parent where
  member := mem_of_superClass? above
  nodup := trail.nodup_cons fresh
  visited_subset := trail.cons_subset
  below := by
    have subclass := subclass_of_superClass? trail.member above
    intro name member
    rcases List.mem_cons.mp member with rfl | member
    · exact .single subclass
    · exact (trail.below name member).tail subclass

end Trail

/-- The budget is not used up before the super classes are. -/
theorem firstRepeated?_eq_none (acyclic : Acyclic pool.Subclass) {budget : Nat}
    {visited : List String} {entry : ClassEntry}
    (trail : pool.Trail visited entry) (enough : pool.size ≤ budget + visited.length) :
    pool.firstRepeated? budget visited entry = none := by
  induction budget generalizing visited entry with
  | zero =>
      have shorter := trail.length_lt (trail.not_mem acyclic)
      omega
  | succ budget ih =>
      rw [firstRepeated?, if_neg (trail.not_mem acyclic), Option.bind_eq_none_iff]
      intro parent above
      apply ih (trail.step (trail.not_mem acyclic) above)
      rw [List.length_cons]
      omega

/-- The check for cycles finds one exactly if some class is above itself. -/
theorem findCycle?_eq_none_iff (distinct : (pool.classes.map (·.name)).Nodup) :
    pool.findCycle? = none ↔ Acyclic pool.Subclass := by
  rw [findCycle?, List.findSome?_eq_none_iff]
  constructor
  · intro none_met name loop
    rcases Relation.TransGen.head'_iff.mp loop with ⟨_, first, _⟩
    rcases first with ⟨entry, member, rfl, _⟩
    exact not_transGen_self_of_acc
      (acc_of_firstRepeated?_eq_none distinct member (none_met entry member)) loop
  · intro acyclic entry member
    exact firstRepeated?_eq_none acyclic (.start member) (by simp)

end ClassPool

/-! ## Repeated methods -/

/-- The methods that a class declares have distinct tokens. -/
def ClassEntry.TokensDistinct (entry : ClassEntry) : Prop :=
  ((TypeView.declaration entry).methods.map (·.token)).Nodup

theorem ClassEntry.tokensDistinct_iff {entry : ClassEntry} :
    entry.TokensDistinct ↔
      (entry.methods.map fun method =>
        (MethodView.mk (.declaration entry) method).token).Nodup := by
  rw [TokensDistinct, TypeView.methods, List.map_map]
  rfl

theorem TypeView.firstRepeatedMethod?_eq_none_iff {seen : List MethodToken}
    {methods : List MethodView} :
    firstRepeatedMethod? seen methods = none ↔
      (∀ method ∈ methods, method.token ∉ seen) ∧ (methods.map (·.token)).Nodup := by
  induction methods generalizing seen with
  | nil => simp [firstRepeatedMethod?]
  | cons method rest ih =>
      rw [firstRepeatedMethod?, List.map_cons, List.nodup_cons, List.forall_mem_cons]
      split_ifs with repeated
      · simp [repeated]
      · rw [ih]
        constructor
        · rintro ⟨fresh, nodup⟩
          have distinct : method.token ∉ rest.map (·.token) := by
            intro member
            rcases List.mem_map.mp member with ⟨other, member, same⟩
            exact fresh other member (same ▸ List.mem_cons_self)
          exact ⟨⟨repeated, fun other member seenBefore =>
            fresh other member (List.mem_cons_of_mem _ seenBefore)⟩, distinct, nodup⟩
        · rintro ⟨⟨_, fresh⟩, distinct, nodup⟩
          refine ⟨fun other member seenBefore => ?_, nodup⟩
          rcases List.mem_cons.mp seenBefore with same | seenBefore
          · exact distinct (List.mem_map.mpr ⟨other, member, same⟩)
          · exact fresh other member seenBefore

theorem ClassPool.findRepeatedMethod?_eq_none_iff {pool : ClassPool} :
    pool.findRepeatedMethod? = none ↔ ∀ entry ∈ pool.classes, entry.TokensDistinct := by
  simp [findRepeatedMethod?, types, ClassEntry.TokensDistinct,
    TypeView.firstRepeatedMethod?_eq_none_iff]

/-! ## Building a pool -/

namespace ClassPool

variable {definitions : List ClassDef}

theorem exists_root_mem_withRoot (definitions : List ClassDef) :
    ∃ root ∈ withRoot definitions, root.name = objectName := by
  rw [withRoot]
  split_ifs with named
  · simpa using named
  · exact ⟨_, List.mem_append_right _ List.mem_cons_self, rfl⟩

theorem withRoot_eq_self {root : ClassDef} (member : root ∈ definitions)
    (isRoot : root.name = objectName) : withRoot definitions = definitions := by
  rw [withRoot, if_pos]
  simpa using ⟨root, member, isRoot⟩

theorem subset_withRoot : definitions ⊆ withRoot definitions := by
  rw [withRoot]
  split_ifs
  · exact List.Subset.refl _
  · exact List.subset_append_left _ _

theorem mem_or_eq_of_mem_withRoot {definition : ClassDef}
    (member : definition ∈ withRoot definitions) :
    definition ∈ definitions ∨ definition = (ClassDef.ofClass objectName).asPublic := by
  rw [withRoot] at member
  split_ifs at member
  · exact .inl member
  · exact (List.mem_append.mp member).imp_right List.mem_singleton.mp

end ClassPool

theorem SuperReference.Refers.exists_target {definitions : List ClassDef} {t : TypeExpr}
    {reference : SuperReference} (refers : Refers definitions t reference) :
    ∃ target ∈ definitions, target.kind = .class ∧ target.name = reference.name := by
  cases refers with
  | raw member isClass => exact ⟨_, member, isClass, rfl⟩
  | generic member isClass _ _ => exact ⟨_, member, isClass, rfl⟩

/-- What a class of a completed list extends is defined in the list. -/
theorem ClassDef.Extends.exists_target {definitions : List ClassDef} {definition : ClassDef}
    {reference : SuperReference}
    (doesExtend : definition.Extends (ClassPool.withRoot definitions) (some reference)) :
    ∃ target ∈ ClassPool.withRoot definitions, target.name = reference.name := by
  cases doesExtend with
  | implicit => exact ClassPool.exists_root_mem_withRoot definitions
  | explicit _ _ _ refers =>
      rcases refers.exists_target with ⟨target, member, _, named⟩
      exact ⟨target, member, named⟩

/-- The classes of a pool are those that a list of definitions describes. -/
structure ClassPool.Means (definitions : List ClassDef) (pool : ClassPool) : Prop where
  distinct : (definitions.map (·.name)).Nodup
  classes : List.Forall₂
    (fun definition entry =>
      definition.Describes entry ∧ definition.Extends definitions entry.superReference)
    definitions pool.classes

/-- What is checked once all classes of a pool are there. -/
structure ClassPool.Consistent (pool : ClassPool) : Prop where
  acyclic : Acyclic pool.Subclass
  tokensDistinct : ∀ entry ∈ pool.classes, entry.TokensDistinct

private theorem complete_all_iff {all : List ClassDef} {allHeaders : List ClassHeader}
    (distinct : (all.map (·.name)).Nodup)
    (allDescribed : List.Forall₂ ClassDef.DescribesHeader all allHeaders)
    {definitions : List ClassDef} {headers : List ClassHeader}
    (described : List.Forall₂ ClassDef.DescribesHeader definitions headers)
    {entries : List ClassEntry} :
    List.Forall₂ (fun (pair : ClassHeader × ClassDef) entry =>
        pair.1.complete allHeaders pair.2 = .ok entry) (headers.zip definitions) entries ↔
      entries.map (·.toClassHeader) = headers ∧
        List.Forall₂ (fun definition entry =>
          definition.Describes entry ∧ definition.Extends all entry.superReference)
          definitions entries := by
  induction described generalizing entries with
  | nil =>
      rw [List.zip_nil_left, List.forall₂_nil_left_iff, List.forall₂_nil_left_iff]
      constructor
      · rintro rfl
        exact ⟨rfl, rfl⟩
      · exact And.right
  | cons describes _ ih =>
      rw [List.zip_cons_cons, List.forall₂_cons_left_iff, List.forall₂_cons_left_iff]
      constructor
      · rintro ⟨entry, rest, completed, restCompleted, rfl⟩
        obtain ⟨rfl, means⟩ :=
          (ClassHeader.complete_eq_ok_iff distinct allDescribed describes).mp completed
        rcases ih.mp restCompleted with ⟨restHeaders, restMeans⟩
        exact ⟨by rw [List.map_cons, restHeaders], entry, rest, means, restMeans, rfl⟩
      · rintro ⟨sameHeaders, entry, rest, means, restMeans, rfl⟩
        rcases List.cons_eq_cons.mp sameHeaders with ⟨sameHeader, restHeaders⟩
        exact ⟨entry, rest,
          (ClassHeader.complete_eq_ok_iff distinct allDescribed describes).mpr
            ⟨sameHeader, means⟩,
          ih.mpr ⟨restHeaders, restMeans⟩, rfl⟩

namespace ClassPool.Means

variable {definitions : List ClassDef} {pool : ClassPool}

theorem described (means : pool.Means definitions) :
    List.Forall₂ ClassDef.Describes definitions pool.classes :=
  means.classes.imp fun _ _ => And.left

theorem headersDescribed (means : pool.Means definitions) :
    List.Forall₂ ClassDef.DescribesHeader definitions (pool.classes.map (·.toClassHeader)) :=
  List.forall₂_map_right_iff.mpr (means.described.imp fun _ _ => (·.toDescribesHeader))

theorem map_name_eq (means : pool.Means definitions) :
    pool.classes.map (·.name) = definitions.map (·.name) :=
  means.described.flip.map_eq_map fun _ _ describes => describes.name

theorem names_nodup (means : pool.Means definitions) : (pool.classes.map (·.name)).Nodup :=
  means.map_name_eq ▸ means.distinct

/-- What is above a class of a pool is a class of the pool. -/
theorem exists_super (means : pool.Means (withRoot definitions)) {sub super : String}
    (subclass : pool.Subclass sub super) : ∃ entry ∈ pool.classes, entry.name = super := by
  rcases subclass with ⟨entry, member, rfl, reference, extended, rfl⟩
  rcases means.classes.exists_of_mem_right member with ⟨definition, _, _, doesExtend⟩
  rw [extended] at doesExtend
  rcases doesExtend.exists_target with ⟨target, targetMember, targetName⟩
  rcases means.described.exists_of_mem_left targetMember with ⟨found, foundMember, describes⟩
  exact ⟨found, foundMember, describes.name.trans targetName⟩

end ClassPool.Means

/-- Headers and classes are read exactly if the classes are what the definitions mean. -/
theorem ClassPool.means_iff_completed {definitions : List ClassDef} {classes : List ClassEntry} :
    (ClassPool.mk classes).Means definitions ↔
      ∃ headers, ClassHeader.ofDefinitions [] definitions = .ok headers ∧
        (headers.zip definitions).mapM (fun pair => pair.1.complete headers pair.2) =
          .ok classes := by
  simp only [Except.mapM_eq_ok_iff fun _ _ => Iff.rfl, ClassHeader.ofDefinitions_eq_ok_iff]
  constructor
  · intro means
    have described := means.headersDescribed
    exact ⟨classes.map (·.toClassHeader), ⟨by simp, means.distinct, described⟩,
      (complete_all_iff means.distinct described described).mpr ⟨rfl, means.classes⟩⟩
  · rintro ⟨headers, ⟨_, distinct, described⟩, completed⟩
    exact ⟨distinct, ((complete_all_iff distinct described described).mp completed).2⟩

/-- The pool of a list of definitions is the one that means them, if it is consistent. -/
theorem ClassPool.ofDefinitions_eq_ok_iff {definitions : List ClassDef} {pool : ClassPool} :
    ofDefinitions definitions = .ok pool ↔
      pool.Means (withRoot definitions) ∧ pool.Consistent := by
  rw [ofDefinitions, Except.bind_eq_ok_iff]
  constructor
  · rintro ⟨headers, headersRead, h⟩
    rcases Except.bind_eq_ok_iff.mp h with ⟨classes, completed, h⟩
    have means : (ClassPool.mk classes).Means (withRoot definitions) :=
      means_iff_completed.mpr ⟨headers, headersRead, completed⟩
    cases cycle : (ClassPool.mk classes).findCycle? with
    | some name =>
        simp only [cycle] at h
        contradiction
    | none =>
        cases repeated : (ClassPool.mk classes).findRepeatedMethod? with
        | some method =>
            simp only [cycle, repeated] at h
            contradiction
        | none =>
            simp only [cycle, repeated] at h
            cases h
            exact ⟨means, (findCycle?_eq_none_iff means.names_nodup).mp cycle,
              findRepeatedMethod?_eq_none_iff.mp repeated⟩
  · rintro ⟨means, acyclic, tokensDistinct⟩
    rcases means_iff_completed.mp means with ⟨headers, headersRead, completed⟩
    refine ⟨headers, headersRead, Except.bind_eq_ok_iff.mpr ⟨pool.classes, completed, ?_⟩⟩
    simp only [(findCycle?_eq_none_iff means.names_nodup).mpr acyclic,
      findRepeatedMethod?_eq_none_iff.mpr tokensDistinct]
    rfl

end BridgeMethods
