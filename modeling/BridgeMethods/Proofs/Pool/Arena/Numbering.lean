import BridgeMethods.Proofs.Pool.Arena
import BridgeMethods.Proofs.View.Regular

/-!
# Numbered hierarchies

`Arena.ofPool` lays a pool out by number.  Its numbers lead where they should: the number of a class
to the class in that place, the numbers of a class to the methods of its definition, and no two
classes share a method.  A handle of such an arena stands for a view of the pool, and whatever is
looked up through it is found.

What is known of the arena is said about the definitions in `Arena.Represents` and about handles in
`Arena.Serves`.
-/

namespace BridgeMethods

namespace ClassRecord

/-- The records of classes whose methods are numbered in order, from a first number on. -/
def numbered : Nat → List ClassEntry → List ClassRecord
  | _, [] => []
  | first, entry :: rest =>
      ⟨entry.toClassHeader, entry.superReference, List.range' first entry.methods.length⟩ ::
        numbered (first + entry.methods.length) rest

theorem numbered_append (first : Nat) (front back : List ClassEntry) :
    numbered first (front ++ back) =
      numbered first front ++ numbered (first + (front.flatMap (·.methods)).length) back := by
  induction front generalizing first with
  | nil => rfl
  | cons entry front ih =>
      rw [List.cons_append, numbered, numbered, ih, List.flatMap_cons, List.length_append,
        Nat.add_assoc, List.cons_append]

theorem map_toClassHeader_numbered (first : Nat) (entries : List ClassEntry) :
    (numbered first entries).map (·.toClassHeader) = entries.map (·.toClassHeader) := by
  induction entries generalizing first with
  | nil => rfl
  | cons entry rest ih => rw [numbered, List.map_cons, List.map_cons, ih]

theorem length_numbered (first : Nat) (entries : List ClassEntry) :
    (numbered first entries).length = entries.length := by
  rw [← List.length_map (·.toClassHeader), map_toClassHeader_numbered, List.length_map]

/-- The numbers of all methods are consecutive. -/
theorem flatMap_methods_numbered (first : Nat) (entries : List ClassEntry) :
    (numbered first entries).flatMap (·.methods) =
      List.range' first (entries.flatMap (·.methods)).length := by
  induction entries generalizing first with
  | nil => rfl
  | cons entry rest ih =>
      rw [numbered, List.flatMap_cons, ih, List.flatMap_cons, List.length_append,
        List.range'_append_1]

end ClassRecord

namespace Arena

theorem follow_eq_ok_iff {α : Type} {targets : List α} {number : Nat} {target : α} :
    follow targets number = .ok target ↔ targets[number]? = some target := by
  rw [follow]
  cases targets[number]? <;> simp

/-- The record of an arena holds a class: its methods are those that the numbers lead to. -/
structure Holds (arena : Arena) (entry : ClassEntry) (record : ClassRecord) : Prop where
  header : record.toClassHeader = entry.toClassHeader
  superReference : record.superReference = entry.superReference
  methods : List.Forall₂ (fun number method => arena.methods[number]? = some method)
    record.methods entry.methods

theorem forall₂_holds_numbered {arena : Arena} (front : List MethodEntry)
    (entries : List ClassEntry) (split : arena.methods = front ++ entries.flatMap (·.methods)) :
    List.Forall₂ arena.Holds entries (ClassRecord.numbered front.length entries) := by
  induction entries generalizing front with
  | nil => exact .nil
  | cons entry rest ih =>
      rw [List.flatMap_cons] at split
      have places : List.Forall₂ (fun number method => arena.methods[number]? = some method)
          (List.range' front.length entry.methods.length) entry.methods := by
        rw [split]
        exact List.forall₂_range'_getElem? front entry.methods _
      have restHeld := ih (front ++ entry.methods) (by rw [split, List.append_assoc])
      rw [List.length_append] at restHeld
      exact .cons ⟨rfl, rfl, places⟩ restHeld

/-- The arena of a pool: classes in their order, and their methods numbered class by class. -/
def ofPool (pool : ClassPool) : Arena where
  classes := ClassRecord.numbered 0 pool.classes
  methods := pool.classes.flatMap (·.methods)
  numbers := (pool.classes.map (·.name)).zipIdx

section OfPool

variable {pool : ClassPool} {entry : ClassEntry} {number : Nat}

theorem forall₂_holds_ofPool (pool : ClassPool) :
    List.Forall₂ (ofPool pool).Holds pool.classes (ofPool pool).classes :=
  forall₂_holds_numbered [] pool.classes rfl

theorem exists_classAt (stands : pool.classes[number]? = some entry) :
    ∃ record, (ofPool pool).classAt number = .ok record ∧ (ofPool pool).Holds entry record := by
  have related := (forall₂_holds_ofPool pool).getElem?_rel number
  rw [stands] at related
  obtain ⟨record, found, holds⟩ := related.exists_of_some
  exact ⟨record, follow_eq_ok_iff.mpr found, holds⟩

theorem getElem?_map_name (stands : pool.classes[number]? = some entry) :
    (pool.classes.map (·.name))[number]? = some entry.name := by
  rw [List.getElem?_map, stands, Option.map_some]

/-- Classes with distinct names stand in different places exactly if their names differ. -/
theorem number_eq_iff (distinct : (pool.classes.map (·.name)).Nodup)
    (stands : pool.classes[number]? = some entry) {other : Nat} {otherEntry : ClassEntry}
    (otherStands : pool.classes[other]? = some otherEntry) :
    other = number ↔ otherEntry.name = entry.name := by
  have otherName := getElem?_map_name otherStands
  constructor
  · rintro rfl
    rw [Option.some.inj (otherStands.symm.trans stands)]
  · intro sameName
    have inRange := (List.getElem?_eq_some_iff.mp otherName).1
    refine (List.getElem?_inj inRange distinct).mp (otherName.trans ?_)
    rw [sameName, getElem?_map_name stands]

/-- The table leads from the name of a class to its place. -/
theorem exists_number (distinct : (pool.classes.map (·.name)).Nodup) {name : String}
    (found : pool.lookup? name = some entry) :
    ∃ number, (ofPool pool).numbers.lookup name = some number ∧
      pool.classes[number]? = some entry := by
  obtain ⟨member, rfl⟩ := (ClassPool.lookup?_eq_some_iff distinct).mp found
  obtain ⟨number, stands⟩ := List.mem_iff_getElem?.mp member
  have listed := (List.lookup_zipIdx_eq_some_iff distinct).mpr (getElem?_map_name stands)
  exact ⟨number, listed, stands⟩

theorem lookup?_rel_numbers (distinct : (pool.classes.map (·.name)).Nodup) (name : String) :
    Option.Rel (fun number entry => pool.classes[number]? = some entry)
      ((ofPool pool).numbers.lookup name) (pool.lookup? name) := by
  cases found : pool.lookup? name with
  | some entry =>
      obtain ⟨number, listed, stands⟩ := exists_number distinct found
      rw [listed]
      exact .some stands
  | none =>
      have absent : name ∉ pool.classes.map (·.name) := by
        simpa using ClassPool.lookup?_eq_none_iff.mp found
      have notListed : (ofPool pool).numbers.lookup name = none :=
        Option.not_isSome_iff_eq_none.mp fun isSome =>
          absent (List.isSome_lookup_zipIdx_iff.mp isSome)
      rw [notListed]
      exact .none

/-- The number of the super class is found if the super class is. -/
theorem exists_superNumber (distinct : (pool.classes.map (·.name)).Nodup)
    (stands : pool.classes[number]? = some entry) :
    ∃ above, (ofPool pool).superNumber number = .ok above ∧
      Option.Rel (fun number entry => pool.classes[number]? = some entry) above
        (pool.superClass? entry) := by
  obtain ⟨record, found, holds⟩ := exists_classAt stands
  refine ⟨record.superReference.bind fun reference =>
    (ofPool pool).numbers.lookup reference.name, ?_, ?_⟩
  · rw [superNumber, found]
    rfl
  · rw [holds.superReference, ClassPool.superClass?]
    cases entry.superReference with
    | none => exact .none
    | some reference => exact lookup?_rel_numbers distinct reference.name

end OfPool

/-! ## Handles -/

/-- A handle stands for a view: its number leads to the class, with the same bindings. -/
structure Shows (pool : ClassPool) (handle : TypeHandle) (view : TypeView) : Prop where
  stands : pool.classes[handle.number]? = some view.entry
  bindings : handle.bindings = view.bindings

namespace Shows

variable {pool : ClassPool} {handle : TypeHandle} {view : TypeView}

theorem view_eq (shows : Shows pool handle view) : (ofPool pool).view handle = .ok view := by
  obtain ⟨record, found, holds⟩ := exists_classAt shows.stands
  have methods : record.methods.mapM (ofPool pool).methodAt = .ok view.entry.methods :=
    (Except.mapM_eq_ok_iff fun _ _ => follow_eq_ok_iff).mpr holds.methods
  refine Except.bind_eq_ok_iff.mpr ⟨record, found, Except.bind_eq_ok_iff.mpr ⟨_, methods, ?_⟩⟩
  rw [holds.header, holds.superReference, shows.bindings]
  rfl

theorem asDeclaration (shows : Shows pool handle view) :
    Shows pool handle.asDeclaration view.asDeclaration :=
  ⟨shows.stands, rfl⟩

/-- The way up leads to the super class with the same arguments, if there is one. -/
theorem exists_superType (distinct : (pool.classes.map (·.name)).Nodup)
    (shows : Shows pool handle view) :
    ∃ above, (ofPool pool).superType handle = .ok above ∧
      Option.Rel (Shows pool) above (pool.superType? view) := by
  rw [superType, shows.view_eq, ClassPool.superType?]
  cases extended : view.entry.superReference with
  | none =>
      refine ⟨none, ?_, .none⟩
      simp only [bind, Except.bind, extended]
      rfl
  | some reference =>
      have related := lookup?_rel_numbers distinct reference.name
      simp only [bind, Except.bind, Option.bind_some, extended]
      generalize pool.lookup? reference.name = target at related ⊢
      generalize (ofPool pool).numbers.lookup reference.name = number at related ⊢
      cases related with
      | none => exact ⟨none, rfl, .none⟩
      | @some number entry stands =>
          obtain ⟨record, found, holds⟩ := exists_classAt stands
          simp only [found, holds.header]
          exact ⟨_, rfl, .some ⟨stands, rfl⟩⟩

/-- The numbers of the methods lead to the methods. -/
theorem exists_methodHandles (shows : Shows pool handle view) :
    ∃ handles, (ofPool pool).methodHandles handle = .ok handles ∧
      List.Forall₂ (fun method shown => (ofPool pool).methodView method = .ok shown) handles
        view.methods := by
  obtain ⟨record, found, holds⟩ := exists_classAt shows.stands
  refine ⟨record.methods.map fun number => ⟨handle, number⟩,
    Except.bind_eq_ok_iff.mpr ⟨record, found, rfl⟩, ?_⟩
  rw [TypeView.methods, List.forall₂_map_left_iff, List.forall₂_map_right_iff]
  refine holds.methods.imp fun number method stands => ?_
  exact Except.bind_eq_ok_iff.mpr ⟨view, shows.view_eq,
    Except.bind_eq_ok_iff.mpr ⟨method, follow_eq_ok_iff.mpr stands, rfl⟩⟩

end Shows

/-! ## What an arena stores -/

/-- The record of an arena is the class of a definition, and its numbers lead to the methods of the
definition. -/
structure Stores (definitions : List ClassDef) (arena : Arena) (definition : ClassDef)
    (record : ClassRecord) : Prop where
  header : definition.DescribesHeader record.toClassHeader
  superReference : definition.Extends definitions record.superReference
  methods : List.Forall₂
    (fun method number => ∃ entry, arena.methods[number]? = some entry ∧
      method.Describes definition.parameterNames entry)
    definition.methods record.methods

/-- An arena stores a list of definitions. -/
structure Represents (definitions : List ClassDef) (arena : Arena) : Prop where
  /-- There is a class for each definition, in their order. -/
  classes : List.Forall₂ (Stores definitions arena) definitions arena.classes
  /-- The table knows just the names of the classes and leads to their places. -/
  numbers : ∀ name number, arena.numbers.lookup name = some number ↔
    ∃ record, arena.classes[number]? = some record ∧ record.name = name
  /-- Class by class, the methods are numbered without a gap. -/
  methods : arena.classes.flatMap (·.methods) = List.range arena.methods.length
  /-- No method belongs to two classes. -/
  disjoint : arena.classes.Pairwise fun record other => record.methods.Disjoint other.methods
  /-- Super classes are known, and are given no arguments or one for each type parameter. -/
  superReferences : ∀ record ∈ arena.classes, ∀ reference,
    record.superReference = some reference →
      ∃ number target, arena.numbers.lookup reference.name = some number ∧
        arena.classes[number]? = some target ∧
        (reference.arguments = [] ∨
          reference.arguments.length = target.typeParameters.length)

variable {definitions : List ClassDef} {pool : ClassPool}

theorem map_name_classes_ofPool (pool : ClassPool) :
    (ofPool pool).classes.map (·.name) = pool.classes.map (·.name) := by
  have sameHeaders := congrArg (List.map ClassHeader.name)
    (ClassRecord.map_toClassHeader_numbered 0 pool.classes)
  rw [List.map_map, List.map_map] at sameHeaders
  exact sameHeaders

theorem forall₂_stores_ofPool (means : pool.Means definitions) :
    List.Forall₂ (Stores definitions (ofPool pool)) definitions (ofPool pool).classes := by
  refine means.classes.flip.of_common (forall₂_holds_ofPool pool) ?_
  rintro entry _ definition record ⟨describes, doesExtend⟩ holds
  exact {
    header := holds.header ▸ describes.toDescribesHeader
    superReference := holds.superReference ▸ doesExtend
    methods := describes.methods.flip.of_common holds.methods.flip
      fun method _ _ _ methodDescribes stands => ⟨method, stands, methodDescribes⟩ }

/-- The super class of a class is a class of the pool. -/
theorem exists_lookup?_of_extends (means : pool.Means (ClassPool.withRoot definitions))
    {entry : ClassEntry} (member : entry ∈ pool.classes) {reference : SuperReference}
    (extended : entry.superReference = some reference) :
    ∃ target, pool.lookup? reference.name = some target := by
  obtain ⟨target, targetMember, named⟩ :=
    means.exists_super ⟨entry, member, rfl, reference, extended, rfl⟩
  exact ⟨target, (ClassPool.lookup?_eq_some_iff means.names_nodup).mpr ⟨targetMember, named⟩⟩

theorem represents_ofPool (means : pool.Means (ClassPool.withRoot definitions)) :
    (ofPool pool).Represents (ClassPool.withRoot definitions) := by
  have numbered : (ofPool pool).classes.flatMap (·.methods) =
      List.range (ofPool pool).methods.length := by
    rw [List.range_eq_range']
    exact ClassRecord.flatMap_methods_numbered 0 pool.classes
  have nodup : ((ofPool pool).classes.flatMap (·.methods)).Nodup := numbered ▸ List.nodup_range
  refine ⟨forall₂_stores_ofPool means, fun name number => ?_, numbered,
    (List.nodup_flatMap.mp nodup).2, fun record member reference extended => ?_⟩
  · rw [ofPool, List.lookup_zipIdx_eq_some_iff means.names_nodup, ← map_name_classes_ofPool,
      List.getElem?_map, Option.map_eq_some_iff]
    rfl
  · obtain ⟨entry, entryMember, holds⟩ :=
      (forall₂_holds_ofPool pool).exists_of_mem_right member
    rw [holds.superReference] at extended
    obtain ⟨target, found⟩ := exists_lookup?_of_extends means entryMember extended
    obtain ⟨number, listed, stands⟩ := exists_number means.names_nodup found
    obtain ⟨targetRecord, targetFound, targetHolds⟩ := exists_classAt stands
    refine ⟨number, targetRecord, listed, follow_eq_ok_iff.mp targetFound, ?_⟩
    rw [targetHolds.header]
    exact means.arity entryMember extended found

/-! ## What handles lead to -/

/-- The handles that can be had of an arena: the declarations of its types, by number or by name, and
what is reached from a handle by going to the super class or by forgetting the type arguments. -/
inductive Reachable (arena : Arena) : TypeHandle → Prop
  | declaration {number : Nat} : number < arena.classes.length →
      Reachable arena (.declaration number)
  | found {name : String} {handle : TypeHandle} : arena.find? name = some handle →
      Reachable arena handle
  | superType {handle parent : TypeHandle} : Reachable arena handle →
      arena.superType handle = .ok (some parent) → Reachable arena parent
  | asDeclaration {handle : TypeHandle} : Reachable arena handle →
      Reachable arena handle.asDeclaration

/-- All that is looked up through a handle is found, and is what a view of the pool shows. -/
structure Serves (arena : Arena) (pool : ClassPool) (handle : TypeHandle) (view : TypeView) :
    Prop where
  reachable : pool.Reachable view
  shown : arena.view handle = .ok view
  /-- No type argument has been cut off. -/
  bindings : view.bindings = [] ∨
    view.bindings.map (·.1) = view.entry.typeParameters.map (·.name)
  superType : ∃ above, arena.superType handle = .ok above ∧
    Option.Rel (fun parent shown => arena.view parent = .ok shown) above (pool.superType? view)
  /-- The super class of a class is found if it has one. -/
  isSome_superType? : (pool.superType? view).isSome = view.entry.superReference.isSome
  methods : ∃ handles, arena.methodHandles handle = .ok handles ∧
    List.Forall₂ (fun method shown => arena.methodView method = .ok shown) handles view.methods

theorem Reachable.exists_shows (distinct : (pool.classes.map (·.name)).Nodup)
    {handle : TypeHandle} (reachable : (ofPool pool).Reachable handle) :
    ∃ view, pool.Reachable view ∧ Shows pool handle view := by
  induction reachable with
  | declaration inRange =>
      rw [← (forall₂_holds_ofPool pool).length_eq] at inRange
      have stands := List.getElem?_eq_getElem inRange
      exact ⟨_, .declaration (List.mem_of_getElem? stands), stands, rfl⟩
  | @found name handle known =>
      obtain ⟨number, listed, rfl⟩ := Option.map_eq_some_iff.mp known
      have related := lookup?_rel_numbers distinct name
      rw [listed] at related
      obtain ⟨entry, _, stands⟩ := related.exists_of_some
      exact ⟨_, .declaration (List.mem_of_getElem? stands), stands, rfl⟩
  | superType _ above ih =>
      obtain ⟨view, viewReachable, shows⟩ := ih
      obtain ⟨found, foundAbove, related⟩ := shows.exists_superType distinct
      rw [← Except.ok.inj (above.symm.trans foundAbove)] at related
      obtain ⟨parentView, parentAbove, parentShows⟩ := related.exists_of_some
      exact ⟨parentView, .superType viewReachable parentAbove, parentShows⟩
  | asDeclaration _ ih =>
      obtain ⟨view, viewReachable, shows⟩ := ih
      exact ⟨view.asDeclaration, .asDeclaration viewReachable, shows.asDeclaration⟩

theorem Shows.serves (means : pool.Means (ClassPool.withRoot definitions)) {handle : TypeHandle}
    {view : TypeView} (shows : Shows pool handle view) (reachable : pool.Reachable view) :
    (ofPool pool).Serves pool handle view := by
  obtain ⟨above, foundAbove, related⟩ := shows.exists_superType means.names_nodup
  obtain ⟨handles, foundHandles, methods⟩ := shows.exists_methodHandles
  exact {
    reachable
    shown := shows.view_eq
    bindings := (means.bindings_of_reachable reachable).1
    superType := ⟨above, foundAbove, related.imp fun _ _ => view_eq⟩
    isSome_superType? := by
      cases extended : view.entry.superReference with
      | none => simp [ClassPool.superType?, extended]
      | some reference =>
          obtain ⟨target, found⟩ := exists_lookup?_of_extends means reachable.entry_mem extended
          simp [ClassPool.superType?, extended, found]
    methods := ⟨handles, foundHandles, methods⟩ }

end Arena

end BridgeMethods
