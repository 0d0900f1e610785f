import BridgeMethods.Definition.Scenario
import BridgeMethods.Proofs.View.VariableUse

/-!
# Regular views

What holds of every view that can be had of an accepted pool.  A view binds all type parameters of
its class or none, since a super class is given as many arguments as it has parameters or none.  The
variables in a class are declared where they are used, so that erasure never meets a variable that
it does not know.  And all that is erased comes out as a name with pairs of brackets behind it,
although names are not checked when a pool is built.
-/

namespace BridgeMethods

open Text

/-! ## Arguments of super classes -/

/-- A class is given no arguments, or as many as it has type parameters. -/
theorem SuperReference.Refers.arity {definitions : List ClassDef} {t : TypeExpr}
    {reference : SuperReference} (refers : Refers definitions t reference) :
    reference.arguments = [] ∨ ∃ target ∈ definitions, target.name = reference.name ∧
      reference.arguments.length = target.typeParameters.length := by
  cases refers with
  | raw _ _ => exact .inl rfl
  | generic member _ _ sameLength => exact .inr ⟨_, member, rfl, sameLength⟩

theorem ClassDef.Extends.arity {definitions : List ClassDef} {definition : ClassDef}
    {reference : SuperReference} (doesExtend : definition.Extends definitions (some reference)) :
    reference.arguments = [] ∨ ∃ target ∈ definitions, target.name = reference.name ∧
      reference.arguments.length = target.typeParameters.length := by
  cases doesExtend with
  | implicit _ _ _ => exact .inl rfl
  | explicit _ _ _ refers => exact refers.arity

namespace ClassPool

variable {definitions : List ClassDef} {pool : ClassPool} {entry target : ClassEntry}

theorem Means.arity (means : pool.Means definitions) (member : entry ∈ pool.classes)
    {reference : SuperReference} (extended : entry.superReference = some reference)
    (found : pool.lookup? reference.name = some target) :
    reference.arguments = [] ∨ reference.arguments.length = target.typeParameters.length := by
  obtain ⟨definition, _, _, doesExtend⟩ := means.classes.exists_of_mem_right member
  rw [extended] at doesExtend
  refine doesExtend.arity.imp_right ?_
  rintro ⟨targetDefinition, targetMember, named, sameLength⟩
  obtain ⟨other, otherMember, describes⟩ := means.described.exists_of_mem_left targetMember
  have otherFound : pool.lookup? reference.name = some other :=
    (lookup?_eq_some_iff means.names_nodup).mpr ⟨otherMember, describes.name.trans named⟩
  obtain rfl : target = other := Option.some.inj (found.symm.trans otherFound)
  exact sameLength.trans describes.typeParameters.length_eq

end ClassPool

/-! ## Erased texts -/

/-- The text of an erased type: a name with pairs of brackets behind it, and so nothing that stands
between the types of a signature or between the parts of an expression. -/
structure IsErasedText (text : String) : Prop where
  shape : ∃ name dimensions, IsName name ∧ text = arrayName name dimensions
  plain : ∀ c ∈ text.toList, isSpace c = false ∧ c ∉ [',', '<', '?', '(', ')']

theorem IsErasedName.isErasedText {erased : String} (isErasedName : IsErasedName erased) :
    IsErasedText erased where
  shape := by
    induction isErasedName with
    | @name name isName => exact ⟨name, 0, isName, rfl⟩
    | @array component _ ih =>
        obtain ⟨name, dimensions, isName, rfl⟩ := ih
        exact ⟨name, dimensions + 1, isName, rfl⟩
  plain c member := by
    have onlyNames (notIdentifier : isIdentifier c = false) : c = '[' ∨ c = ']' := by
      by_contra other
      exact isErasedName.not_mem notIdentifier (by simpa using other) member
    constructor
    · by_contra space
      rcases onlyNames (isIdentifier_eq_false_of_isSpace (by simpa using space)) with rfl | rfl <;>
        exact absurd space (by decide)
    · intro separator
      have noneIs : [',', '<', '?', '(', ')'].any isIdentifier = false := by decide
      have notIdentifier := Bool.eq_false_iff.mpr (List.any_eq_false.mp noneIs c separator)
      rcases onlyNames notIdentifier with rfl | rfl <;>
        exact absurd separator (by decide)

/-! ## Views -/

namespace TypeView

/-- A view whose bindings fit its class, in which erasure knows all variables and gives names. -/
structure Regular (view : TypeView) : Prop where
  /-- Nothing is bound, or the type parameters of the class are, in order. -/
  bindings : view.bindings = [] ∨
    view.bindings.map (·.1) = view.entry.typeParameters.map (·.name)
  /-- Arguments are erased. -/
  arguments : ∀ binding ∈ view.bindings, IsErasedText binding.2
  /-- Every variable that is mentioned in the class is a type parameter of the class, or of the
  method that it is mentioned in. -/
  wellScoped : view.entry.WellScoped
  /-- The erasure of an expression of the class expands none but known variables. -/
  known : view.entry.Each fun method t => ∀ name, t.head = .typeVar name →
    ∃ expanded,
      view.Evaluates 0 ⟨method, name⟩ expanded (view.eraseVar maxBoundChain method name) ∧
        ∀ use ∈ expanded, (view.meaning? use).isSome = true
  /-- The types of the methods are erased. -/
  types : ∀ method ∈ view.methods,
    IsErasedText method.returnType ∧ ∀ erased ∈ method.parameterTypes, IsErasedText erased

variable {view : TypeView}

/-- An expression whose variables are declared is erased without meeting one that is not known. -/
theorem exists_evaluates_known (wellScoped : view.entry.WellScoped) {method : Option MethodEntry}
    (owns : view.entry.Owns method) {t : TypeExpr} (declared : view.entry.Scoped method t)
    {name : String} (heads : t.head = .typeVar name) :
    ∃ expanded,
      view.Evaluates 0 ⟨method, name⟩ expanded (view.eraseVar maxBoundChain method name) ∧
        ∀ use ∈ expanded, (view.meaning? use).isSome = true := by
  have start : 0 + maxBoundChain = maxBoundChain := Nat.zero_add _
  obtain ⟨expanded, evaluates⟩ := view.exists_evaluates start ⟨method, name⟩
  refine ⟨expanded, evaluates, fun use member => ?_⟩
  have inScope := evaluates.inScope wellScoped ⟨owns, declared name (.of_head heads)⟩ use member
  exact Option.isSome_iff_exists.mpr inScope.exists_meaning

end TypeView

namespace ClassPool

variable {definitions : List ClassDef} {pool : ClassPool} {view : TypeView}

/-- The way up binds all type parameters or none, each to an erased name. -/
theorem Means.bindings_of_superType? (means : pool.Means definitions)
    (reachable : pool.Reachable view) {parent : TypeView}
    (above : pool.superType? view = some parent) :
    (parent.bindings = [] ∨
        parent.bindings.map (·.1) = parent.entry.typeParameters.map (·.name)) ∧
      ∀ binding ∈ parent.bindings, IsErasedName binding.2 := by
  obtain ⟨reference, extended, found, bound⟩ := superType?_eq_some_iff.mp above
  have sound := means.sound reachable
  rw [bound]
  constructor
  · refine (means.arity reachable.entry_mem extended found).imp (fun none => ?_) fun sameLength => ?_
    · rw [none, List.map_nil, List.zip_nil_right]
    · apply List.map_fst_zip
      rw [List.length_map, List.length_map, sameLength]
  · rintro ⟨name, erased⟩ member
    obtain ⟨t, argument, rfl⟩ := List.mem_map.mp (List.of_mem_zip member).2
    exact sound.isErasedName_erase ClassEntry.owns_none
      (sound.written.arguments reference extended t argument)

theorem Means.bindings_of_reachable (means : pool.Means definitions)
    (reachable : pool.Reachable view) :
    (view.bindings = [] ∨ view.bindings.map (·.1) = view.entry.typeParameters.map (·.name)) ∧
      ∀ binding ∈ view.bindings, IsErasedName binding.2 := by
  cases reachable with
  | declaration _ | asDeclaration _ => exact ⟨.inl rfl, nofun⟩
  | superType below above => exact means.bindings_of_superType? below above

/-- All views of an accepted pool are regular. -/
theorem reachable_regular (accepted : ofDefinitions definitions = .ok pool)
    (reachable : pool.Reachable view) : view.Regular := by
  have means := (ofDefinitions_eq_ok_iff.mp accepted).1
  have wellScoped := means.wellScoped reachable.entry_mem
  have sound := means.sound reachable
  obtain ⟨bindings, arguments⟩ := means.bindings_of_reachable reachable
  exact {
    bindings
    arguments := fun binding member => (arguments binding member).isErasedText
    wellScoped
    known := wellScoped.owned.imp fun _ _ ⟨owns, declared⟩ _ =>
      TypeView.exists_evaluates_known wellScoped owns declared
    types := fun method member => ⟨(sound.returnType member).isErasedText,
      fun erased erasedMember => (sound.parameterTypes member erased erasedMember).isErasedText⟩ }

theorem reachable_regular_scenario :
    ∃ pool view, ofDefinitions Scenario.genericParameter = .ok pool ∧ pool.Reachable view ∧
      view.bindings = [("T", "java.lang.String")] ∧ view.Regular := by
  obtain ⟨pool, entry, view, accepted, member, above, bindings⟩ :
      ∃ pool entry view, ofDefinitions Scenario.genericParameter = .ok pool ∧
        entry ∈ pool.classes ∧ pool.superType? (.declaration entry) = some view ∧
        view.bindings = [("T", "java.lang.String")] :=
    ⟨_, _, _, rfl, List.mem_cons_of_mem _ List.mem_cons_self, rfl, by decide +kernel⟩
  have reachable : pool.Reachable view := .superType (.declaration member) above
  exact ⟨pool, view, accepted, reachable, bindings, reachable_regular accepted reachable⟩

end ClassPool

end BridgeMethods
