import BridgeMethods.Proofs.Pool.Scope

/-!
# Erased names

Erasure leaves nothing of an expression but a name and array dimensions.  So it is for every type
that is seen through a view of an accepted pool, whatever the bounds of the type variables and the
arguments that the view binds to them.

`ClassPool.Reachable` are the views that can be had of a pool.
-/

namespace BridgeMethods

open Text

/-- The name of a class or of a primitive type, or of an array of one. -/
inductive IsErasedName : String → Prop
  | name {name : String} : IsName name → IsErasedName name
  | array {component : String} : IsErasedName component → IsErasedName (component ++ "[]")

theorem isErasedName_object : IsErasedName objectName :=
  .name (by decide)

namespace IsErasedName

variable {erased : String}

theorem toList_ne_nil (isErasedName : IsErasedName erased) : erased.toList ≠ [] := by
  cases isErasedName with
  | name isName => exact isName.1
  | array _ => simp

/-- Nothing but identifier characters and brackets is in an erased name. -/
theorem not_mem (isErasedName : IsErasedName erased) {c : Char}
    (notIdentifier : isIdentifier c = false) (notBracket : c ∉ ['[', ']']) :
    c ∉ erased.toList := by
  induction isErasedName with
  | name isName =>
      intro member
      simp [isName.2 c member] at notIdentifier
  | array _ ih =>
      rw [String.toList_append, List.mem_append, not_or]
      exact ⟨ih, notBracket⟩

end IsErasedName

namespace TypeExpr

theorem IsType.isErasedName {isVariable : String → Bool} {eraseVar : String → String}
    (varsErased : ∀ name, IsErasedName (eraseVar name)) {t : TypeExpr} (isType : t.IsType) :
    IsErasedName ((t.resolve isVariable).erasure eraseVar) := by
  induction t with
  | named name =>
      cases isType with
      | named isName =>
          rw [resolve]
          split_ifs
          · exact varsErased name
          · exact .name isName
  | typeVar name => cases isType
  | generic head arguments =>
      cases isType with
      | generic isName => exact .name isName
  | array component ih =>
      cases isType with
      | array componentIsType => exact .array (ih componentIsType)
  | wildcard upper lower => cases isType

theorem IsArgument.isErasedName {isVariable : String → Bool} {eraseVar : String → String}
    (varsErased : ∀ name, IsErasedName (eraseVar name)) {t : TypeExpr} (isArgument : t.IsArgument) :
    IsErasedName ((t.resolve isVariable).erasure eraseVar) := by
  cases isArgument with
  | type isType => exact isType.isErasedName varsErased
  | unbounded => exact isErasedName_object
  | extending isType => exact isType.isErasedName varsErased
  | super => exact isErasedName_object

end TypeExpr

/-- What comes from a text is erased to a name, if variables are. -/
theorem Written.isErasedName {scope : List String} {t : TypeExpr} (written : Written scope t)
    {eraseVar : String → String} (varsErased : ∀ name, IsErasedName (eraseVar name)) :
    IsErasedName (t.erasure eraseVar) := by
  cases written with
  | object => exact isErasedName_object
  | denoted denotes =>
      rcases denotes with ⟨written, parsed, rfl⟩
      exact (TypeExpr.wellFormed_of_parse parsed).isType.isErasedName varsErased
  | argument denotes member =>
      rcases denotes with ⟨written, parsed, resolved⟩
      cases (TypeExpr.wellFormed_of_parse parsed).isType with
      | named _ =>
          rw [TypeExpr.resolve] at resolved
          split_ifs at resolved
      | array _ => cases resolved
      | generic _ _ areArguments =>
          rw [TypeExpr.resolve, TypeExpr.resolveList_eq_map] at resolved
          rcases TypeExpr.generic.inj resolved with ⟨_, rfl⟩
          rcases List.mem_map.mp member with ⟨argument, argumentMember, rfl⟩
          exact (areArguments argument argumentMember).isErasedName varsErased

/-! ## Views of a pool -/

/-- The views that can be had of a pool: the declarations of its types, and what is reached from
a view by going to the super class or by forgetting the type arguments. -/
inductive ClassPool.Reachable (pool : ClassPool) : TypeView → Prop
  | declaration {entry : ClassEntry} : entry ∈ pool.classes →
      Reachable pool (.declaration entry)
  | superType {view parent : TypeView} : Reachable pool view →
      pool.superType? view = some parent → Reachable pool parent
  | asDeclaration {view : TypeView} : Reachable pool view → Reachable pool view.asDeclaration

/-- The expressions of the class come from texts, and erased names are bound to its parameters. -/
structure TypeView.Sound (view : TypeView) : Prop where
  written : view.entry.Each fun method => Written (view.entry.variablesInScope method)
  bindings : ∀ name erased, view.bindings.lookup name = some erased → IsErasedName erased

namespace TypeView.Sound

variable {view : TypeView} {method : Option MethodEntry}

theorem declaration {entry : ClassEntry}
    (written : entry.Each fun method => Written (entry.variablesInScope method)) :
    (TypeView.declaration entry).Sound :=
  ⟨written, nofun⟩

theorem isErasedName_eraseVar (sound : view.Sound)
    (owns : view.entry.Owns method) (budget : Nat) (name : String) :
    IsErasedName (view.eraseVar budget method name) := by
  induction budget generalizing method name with
  | zero => exact isErasedName_object
  | succ budget ih =>
      rw [eraseVar]
      split
      · rename_i parameter found
        rcases Option.bind_eq_some_iff.mp found with ⟨m, rfl, found⟩
        have written := sound.written.methodBounds m (owns m rfl) parameter
          (TypeParameter.mem_of_find? found)
        exact written.isErasedName (ih owns)
      · split
        · exact sound.bindings name _ ‹_›
        · split
          · rename_i parameter found
            have written := sound.written.bounds parameter (TypeParameter.mem_of_find? found)
            exact written.isErasedName (ih ClassEntry.owns_none)
          · exact isErasedName_object

theorem isErasedName_erase (sound : view.Sound)
    (owns : view.entry.Owns method) {scope : List String} {t : TypeExpr}
    (written : Written scope t) : IsErasedName (view.erase method t) :=
  written.isErasedName (sound.isErasedName_eraseVar owns maxBoundChain)

theorem returnType (sound : view.Sound) {method : MethodView} (member : method ∈ view.methods) :
    IsErasedName method.returnType := by
  rcases List.mem_map.mp member with ⟨entry, entryMember, rfl⟩
  exact sound.isErasedName_erase (ClassEntry.owns_some entryMember)
    (sound.written.returnTypes entry entryMember)

theorem parameterTypes (sound : view.Sound) {method : MethodView}
    (member : method ∈ view.methods) : ∀ erased ∈ method.parameterTypes, IsErasedName erased := by
  rcases List.mem_map.mp member with ⟨entry, entryMember, rfl⟩
  intro erased erasedMember
  rcases List.mem_map.mp erasedMember with ⟨t, tMember, rfl⟩
  exact sound.isErasedName_erase (ClassEntry.owns_some entryMember)
    (sound.written.parameterTypes entry entryMember t tMember)

theorem superType (sound : view.Sound) {pool : ClassPool} {parent : TypeView}
    (above : pool.superType? view = some parent)
    (written : parent.entry.Each fun method => Written (parent.entry.variablesInScope method)) :
    parent.Sound := by
  refine ⟨written, fun name erased bound => ?_⟩
  rcases ClassPool.superType?_eq_some_iff.mp above with ⟨reference, extended, _, bindings⟩
  rw [bindings] at bound
  rcases List.mem_map.mp (List.mem_of_lookup_zip bound) with ⟨t, member, rfl⟩
  exact sound.isErasedName_erase ClassEntry.owns_none
    (sound.written.arguments reference extended t member)

end TypeView.Sound

namespace ClassPool

variable {definitions : List ClassDef} {pool : ClassPool} {view : TypeView}

theorem Reachable.entry_mem (reachable : pool.Reachable view) : view.entry ∈ pool.classes := by
  induction reachable with
  | declaration member => exact member
  | superType _ above _ => exact mem_of_superType? above
  | asDeclaration _ ih => exact ih

theorem Means.sound (means : pool.Means definitions) (reachable : pool.Reachable view) :
    view.Sound := by
  induction reachable with
  | declaration member => exact .declaration (means.each_written member)
  | superType _ above ih => exact ih.superType above (means.each_written (mem_of_superType? above))
  | asDeclaration reachable _ => exact .declaration (means.each_written reachable.entry_mem)

end ClassPool

end BridgeMethods
