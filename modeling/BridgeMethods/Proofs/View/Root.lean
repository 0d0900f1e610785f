import BridgeMethods.Definition.Scenario
import BridgeMethods.Proofs.View.Chain

/-!
# The root of the hierarchy

Every class but the root has a super class: the one that it names, or the root if it names none.
The definitions that are completed with the root therefore lead up to it from every class, and
nothing is above it, whatever its own definition says.

What a class names must be a class.  The root is not looked at when it is the super class of a class
that names none, so a root that is defined as an interface is above all classes.
-/

namespace BridgeMethods

namespace ClassPool

variable {definitions : List ClassDef} {pool : ClassPool} {view : TypeView} {chain : List TypeView}

theorem Means.exists_superType (means : pool.Means definitions) {reference : SuperReference}
    (extended : view.entry.superReference = some reference) {target : ClassDef}
    (member : target ∈ definitions) (targetName : target.name = reference.name) :
    ∃ parent, pool.superType? view = some parent ∧ target.Describes parent.entry := by
  rcases means.described.exists_of_mem_left member with ⟨entry, entryMember, describes⟩
  have found : pool.lookup? reference.name = some entry :=
    (lookup?_eq_some_iff means.names_nodup).mpr ⟨entryMember, describes.name.trans targetName⟩
  have above : pool.superType? view = some ⟨entry, (entry.typeParameters.map (·.name)).zip
      (reference.arguments.map (view.erase none))⟩ :=
    superType?_eq_some_iff.mpr ⟨reference, extended, found, rfl⟩
  exact ⟨_, above, describes⟩

/-- What an expression refers to as super class is a class. -/
theorem Means.exists_superType_of_refers (means : pool.Means definitions)
    {reference : SuperReference} (extended : view.entry.superReference = some reference)
    {t : TypeExpr} (refers : SuperReference.Refers definitions t reference) :
    ∃ parent, pool.superType? view = some parent ∧ parent.isInterface = false := by
  rcases refers.exists_target with ⟨target, targetMember, targetKind, targetName⟩
  rcases means.exists_superType extended targetMember targetName with ⟨parent, above, isTarget⟩
  refine ⟨parent, above, ?_⟩
  rw [TypeView.isInterface, isTarget.isInterface, targetKind]
  rfl

/-- What a step up can be.  Only interfaces and the root have no super type, and what is not the
root is a super type only if it is a class. -/
theorem Means.superType?_cases (means : pool.Means (withRoot definitions))
    (member : view.entry ∈ pool.classes) :
    pool.superType? view = none ∧ (view.isInterface = true ∨ view.name = objectName) ∨
      ∃ parent, pool.superType? view = some parent ∧ view.isInterface = false ∧
        (parent.isInterface = false ∨ parent.name = objectName) := by
  rcases means.classes.exists_of_mem_right member with ⟨definition, _, describes, doesExtend⟩
  have isInterface_eq : view.isInterface = decide (definition.kind = .interface) :=
    describes.isInterface
  have top (noReference : view.entry.superReference = none) : pool.superType? view = none := by
    rw [superType?, noReference]
    rfl
  generalize extended : view.entry.superReference = reference at doesExtend
  cases doesExtend with
  | interface kind _ => exact .inl ⟨top extended, .inl (by simp [isInterface_eq, kind])⟩
  | root _ _ isRoot => exact .inl ⟨top extended, .inr (describes.name.trans isRoot)⟩
  | implicit kind _ _ =>
      rcases exists_root_mem_withRoot definitions with ⟨root, rootMember, rootName⟩
      rcases means.exists_superType extended rootMember rootName with ⟨parent, above, isRoot⟩
      exact .inr ⟨parent, above, by simp [isInterface_eq, kind], .inr (isRoot.name.trans rootName)⟩
  | explicit kind _ _ refers =>
      rcases means.exists_superType_of_refers extended refers with ⟨parent, above, parentIsClass⟩
      exact .inr ⟨parent, above, by simp [isInterface_eq, kind], .inl parentIsClass⟩

theorem Means.of_superType?_eq_none (means : pool.Means (withRoot definitions))
    (member : view.entry ∈ pool.classes) (isTop : pool.superType? view = none) :
    view.isInterface = true ∨ view.name = objectName := by
  rcases means.superType?_cases member with ⟨_, isInterfaceOrRoot⟩ | ⟨_, above, _⟩
  · exact isInterfaceOrRoot
  · rw [isTop] at above
    contradiction

theorem Means.of_superType?_eq_some (means : pool.Means (withRoot definitions))
    (member : view.entry ∈ pool.classes) {parent : TypeView}
    (above : pool.superType? view = some parent) :
    view.isInterface = false ∧ (parent.isInterface = false ∨ parent.name = objectName) := by
  rcases means.superType?_cases member with ⟨isTop, _⟩ | ⟨other, otherAbove, isClass⟩
  · rw [isTop] at above
    contradiction
  · obtain rfl := Option.some.inj (above.symm.trans otherAbove)
    exact isClass

/-- The way up from a class, or from the root itself, ends at the root. -/
theorem Climbs.getLast_name (climbs : pool.Climbs view chain)
    (means : pool.Means (withRoot definitions)) (member : view.entry ∈ pool.classes)
    (start : view.isInterface = false ∨ view.name = objectName) :
    ((view :: chain).getLast (List.cons_ne_nil view chain)).name = objectName := by
  induction climbs with
  | top isTop =>
      rcases means.of_superType?_eq_none member isTop with isInterface | isRoot
      · exact start.resolve_left (by simp [isInterface])
      · exact isRoot
  | up above _ ih =>
      rw [List.getLast_cons_cons]
      exact ih (mem_of_superType? above) (means.of_superType?_eq_some member above).2

/-- No super type but the root can be an interface. -/
theorem Climbs.isClass_or_root (climbs : pool.Climbs view chain)
    (means : pool.Means (withRoot definitions)) (member : view.entry ∈ pool.classes) :
    ∀ super ∈ chain, super.isInterface = false ∨ super.name = objectName := by
  induction climbs with
  | top _ => exact nofun
  | up above _ ih =>
      exact List.forall_mem_cons.mpr
        ⟨(means.of_superType?_eq_some member above).2, ih (mem_of_superType? above)⟩

theorem Climbs.eq_nil_of_interface (climbs : pool.Climbs view chain)
    (means : pool.Means (withRoot definitions)) (member : view.entry ∈ pool.classes)
    (isInterface : view.isInterface = true) : chain = [] := by
  cases climbs with
  | top _ => rfl
  | up above _ =>
      have isClass := (means.of_superType?_eq_some member above).1
      rw [isInterface] at isClass
      contradiction

/-- Nothing is above the root, since the way up from there would lead back to it. -/
theorem Climbs.eq_nil_of_root (climbs : pool.Climbs view chain)
    (means : pool.Means (withRoot definitions)) (acyclic : Acyclic pool.Subclass)
    (member : view.entry ∈ pool.classes) (isRoot : view.name = objectName) : chain = [] := by
  cases chain with
  | nil => rfl
  | cons parent above =>
      have last_name := climbs.getLast_name means member (.inr isRoot)
      have nodup := climbs.names_nodup acyclic member
      rw [List.getLast_cons_cons] at last_name
      rw [List.map_cons, List.nodup_cons] at nodup
      have last_mem := List.getLast_mem (List.cons_ne_nil parent above)
      exact absurd (List.mem_map.mpr ⟨_, last_mem, last_name.trans isRoot.symm⟩) nodup.1

/-- What is known of the super types of a view. -/
structure Rooted (pool : ClassPool) (view : TypeView) : Prop where
  /-- The way up ends, and passes just these. -/
  climbs_iff : ∀ chain, pool.Climbs view chain ↔ chain = pool.superTypes view
  /-- No class is met twice, and the class of the view is not met again. -/
  names_nodup : ((view :: pool.superTypes view).map (·.name)).Nodup
  length_lt : (pool.superTypes view).length < pool.size
  of_interface : view.isInterface = true → pool.superTypes view = []
  of_root : view.name = objectName → pool.superTypes view = []
  of_class : view.isInterface = false → view.name ≠ objectName →
    ∃ root, (pool.superTypes view).getLast? = some root ∧ root.name = objectName

theorem Means.rooted (means : pool.Means (withRoot definitions)) (acyclic : Acyclic pool.Subclass)
    (member : view.entry ∈ pool.classes) : pool.Rooted view := by
  have climbs := climbs_superTypes acyclic member
  exact {
    climbs_iff := fun chain => climbs_iff acyclic member
    names_nodup := climbs.names_nodup acyclic member
    length_lt := climbs.length_lt acyclic member
    of_interface := climbs.eq_nil_of_interface means member
    of_root := climbs.eq_nil_of_root means acyclic member
    of_class := by
      intro isClass notRoot
      have last_name := climbs.getLast_name means member (.inl isClass)
      generalize pool.superTypes view = chain at last_name ⊢
      cases chain with
      | nil => exact absurd last_name notRoot
      | cons parent above =>
          rw [List.getLast_cons_cons] at last_name
          exact ⟨_, List.getLast?_eq_some_getLast _, last_name⟩ }

/-- The super types of a view of an accepted pool are finitely many, are of different classes and
end with the root.  The search for cycles ends in every pool, with or without cycles. -/
theorem superTypes_rooted :
    (∀ definitions pool, ofDefinitions definitions = .ok pool →
      ∀ view, pool.Reachable view → pool.Rooted view) ∧
    ∀ pool : ClassPool, ∀ entry ∈ pool.classes, ∀ met,
      pool.Meets [] entry met ↔ met = pool.firstRepeated? pool.size [] entry := by
  constructor
  · intro definitions pool accepted view reachable
    rcases ofDefinitions_eq_ok_iff.mp accepted with ⟨means, consistent⟩
    exact means.rooted consistent.acyclic reachable.entry_mem
  · intro pool entry member met
    exact meets_iff member

theorem superTypes_rooted_scenario :
    (∃ pool, ofDefinitions Scenario.closestTypeVariableAncestor = .ok pool ∧
      ∃ view, pool.Reachable view ∧ view.isParameterized = true ∧ pool.Rooted view) ∧
    ∃ pool : ClassPool, ∃ entry ∈ pool.classes, pool.superClass? entry = some entry ∧
      pool.Meets [] entry (some entry.name) := by
  constructor
  · obtain ⟨pool, accepted, entry, member, parent, above, isParameterized⟩ : ∃ pool,
        ofDefinitions Scenario.closestTypeVariableAncestor = .ok pool ∧
          ∃ entry ∈ pool.classes, ∃ parent,
            pool.superType? (.declaration entry) = some parent ∧ parent.isParameterized = true :=
      ⟨_, rfl, _, List.mem_cons_of_mem _ (List.mem_cons_of_mem _ List.mem_cons_self), _, rfl, rfl⟩
    have reachable : pool.Reachable parent := .superType (.declaration member) above
    exact ⟨pool, accepted, parent, reachable, isParameterized,
      superTypes_rooted.1 _ pool accepted parent reachable⟩
  · obtain ⟨pool, entry, member, loop, met⟩ : ∃ pool : ClassPool, ∃ entry ∈ pool.classes,
        pool.superClass? entry = some entry ∧
          some entry.name = pool.firstRepeated? pool.size [] entry :=
      ⟨⟨[⟨⟨"a.Loop", false, .empty, []⟩, some ⟨"a.Loop", []⟩, []⟩]⟩, _, List.mem_cons_self,
        by decide +kernel, by decide +kernel⟩
    exact ⟨pool, entry, member, loop, (superTypes_rooted.2 pool entry member _).mpr met⟩

/-! ## Interfaces among super types -/

theorem Means.exists_interface_root_iff (means : pool.Means (withRoot definitions)) :
    (∃ root ∈ pool.classes, root.name = objectName ∧ root.isInterface = true) ↔
      ∃ root ∈ definitions, root.name = objectName ∧ root.kind = .interface := by
  constructor
  · rintro ⟨root, member, rootName, isInterface⟩
    rcases means.described.exists_of_mem_right member with ⟨definition, definitionMember, describes⟩
    have kind : definition.kind = .interface := by
      simpa [isInterface] using describes.isInterface
    have defined : definition ∈ definitions := by
      rcases mem_or_eq_of_mem_withRoot definitionMember with defined | rfl
      · exact defined
      · contradiction
    exact ⟨definition, defined, describes.name.symm.trans rootName, kind⟩
  · rintro ⟨definition, definitionMember, rootName, kind⟩
    rcases means.described.exists_of_mem_left (subset_withRoot definitionMember) with
      ⟨root, member, describes⟩
    exact ⟨root, member, describes.name.trans rootName, by simp [describes.isInterface, kind]⟩

theorem Means.forall_isInterface_iff (means : pool.Means definitions) :
    (∀ entry ∈ pool.classes, entry.isInterface = true) ↔
      ∀ definition ∈ definitions, definition.kind = .interface := by
  constructor
  · intro areInterfaces definition member
    rcases means.described.exists_of_mem_left member with ⟨entry, entryMember, describes⟩
    simpa [areInterfaces entry entryMember] using describes.isInterface
  · intro areInterfaces entry member
    rcases means.described.exists_of_mem_right member with ⟨definition, definitionMember, describes⟩
    simp [describes.isInterface, areInterfaces definition definitionMember]

/-- The super type of a class that names one is a class. -/
theorem Means.isClass_of_extending (means : pool.Means (withRoot definitions))
    {definition : ClassDef} (definitionMember : definition ∈ withRoot definitions)
    (extending : definition.extending ≠ none) (member : view.entry ∈ pool.classes)
    (sameName : view.name = definition.name) {parent : TypeView}
    (above : pool.superType? view = some parent) : parent.isInterface = false := by
  rcases means.classes.exists_of_mem_left definitionMember with
    ⟨entry, entryMember, describes, doesExtend⟩
  obtain rfl : entry = view.entry := List.inj_on_of_nodup_map means.names_nodup entryMember member
    (describes.name.trans sameName.symm)
  rcases superType?_eq_some_iff.mp above with ⟨reference, extended, found, _⟩
  rw [extended] at doesExtend
  cases doesExtend with
  | implicit _ notExtending _ => exact absurd notExtending extending
  | explicit _ _ _ refers =>
      rcases means.exists_superType_of_refers extended refers with ⟨other, otherAbove, isClass⟩
      rw [Option.some.inj (above.symm.trans otherAbove)]
      exact isClass

theorem Means.superTypes_isClass_iff (means : pool.Means (withRoot definitions))
    (acyclic : Acyclic pool.Subclass) :
    (∀ entry ∈ pool.classes, ∀ view ∈ pool.superTypes (.declaration entry),
        view.isInterface = false) ↔
      ((∃ root ∈ pool.classes, root.name = objectName ∧ root.isInterface = true) →
        ∀ entry ∈ pool.classes, entry.isInterface = true) := by
  constructor
  · rintro areClasses ⟨root, rootMember, rootName, rootIsInterface⟩ entry member
    by_contra isClass
    have unique : ∀ other ∈ pool.classes, other.name = objectName → other = root :=
      fun other otherMember otherName =>
        List.inj_on_of_nodup_map means.names_nodup otherMember rootMember
          (otherName.trans rootName.symm)
    have notRoot : entry.name ≠ objectName := by
      intro isRoot
      rw [unique entry member isRoot] at isClass
      exact isClass rootIsInterface
    have rooted : pool.Rooted (.declaration entry) := means.rooted acyclic member
    obtain ⟨last, isLast, lastName⟩ := rooted.of_class (eq_false_of_ne_true isClass) notRoot
    have lastMember := List.mem_of_getLast? isLast
    have lastEntryMember := entry_mem_of_mem_superTypes acyclic member lastMember
    have lastIsClass := areClasses entry member last lastMember
    rw [TypeView.isInterface, unique last.entry lastEntryMember lastName,
      rootIsInterface] at lastIsClass
    contradiction
  · intro areInterfaces entry member view viewMember
    by_contra notClass
    have climbs : pool.Climbs (.declaration entry) (pool.superTypes (.declaration entry)) :=
      climbs_superTypes acyclic member
    have viewEntryMember := entry_mem_of_mem_superTypes acyclic member viewMember
    have isRoot := (climbs.isClass_or_root means member view viewMember).resolve_left notClass
    have isInterface := areInterfaces
      ⟨view.entry, viewEntryMember, isRoot, eq_true_of_ne_false notClass⟩ entry member
    rw [climbs.eq_nil_of_interface means member isInterface] at viewMember
    contradiction

/-- A class never names an interface as its super class.  All super types in an accepted pool are
classes if and only if the root is not defined as an interface, or no class is defined at all. -/
theorem superTypes_are_classes_iff (accepted : ofDefinitions definitions = .ok pool) :
    (∀ definition ∈ definitions, definition.extending ≠ none →
      ∀ view, pool.Reachable view → view.name = definition.name →
        ∀ parent, pool.superType? view = some parent → parent.isInterface = false) ∧
    ((∀ entry ∈ pool.classes, ∀ view ∈ pool.superTypes (.declaration entry),
        view.isInterface = false) ↔
      ((∃ root ∈ definitions, root.name = objectName ∧ root.kind = .interface) →
        ∀ definition ∈ definitions, definition.kind = .interface)) := by
  rcases ofDefinitions_eq_ok_iff.mp accepted with ⟨means, consistent⟩
  constructor
  · intro definition definitionMember extending view reachable sameName parent above
    exact means.isClass_of_extending (subset_withRoot definitionMember) extending
      reachable.entry_mem sameName above
  · rw [means.superTypes_isClass_iff consistent.acyclic, means.exists_interface_root_iff]
    refine imp_congr_right fun ⟨root, member, isRoot, _⟩ => ?_
    rw [withRoot_eq_self member isRoot] at means
    exact means.forall_isInterface_iff

theorem superTypes_are_classes_scenario :
    ∃ pool, ofDefinitions Scenario.methodKinds = .ok pool ∧
      ∀ entry ∈ pool.classes, ∀ view ∈ pool.superTypes (.declaration entry),
        view.isInterface = false := by
  obtain ⟨pool, accepted⟩ : ∃ pool, ofDefinitions Scenario.methodKinds = .ok pool := ⟨_, rfl⟩
  refine ⟨pool, accepted, (superTypes_are_classes_iff accepted).2.mpr ?_⟩
  intro rootDefined
  exact absurd rootDefined (by decide +kernel)

/-- A root that is defined as an interface is the super type of a class that names none. -/
theorem interface_root_is_superType :
    ∃ pool,
      ofDefinitions [{ name := objectName, kind := .interface }, { name := "a.A" }] = .ok pool ∧
      ∃ entry ∈ pool.classes, ∃ view ∈ pool.superTypes (.declaration entry),
        view.isInterface = true :=
  ⟨_, rfl, _, List.mem_cons_of_mem _ List.mem_cons_self, _, List.mem_cons_self, rfl⟩

end ClassPool

end BridgeMethods
