import BridgeMethods.Proofs.View.VariableUse

/-!
# The limit on chains of bounds

A bound may be headed by another variable, and bounds may lead in a circle.  `TypeView.Passes`
follows a variable from bound to bound without any limit, and `TypeView.EndsIn` says where this ends
if it does, each with the number of variables and of array dimensions on the way.

Erasure comes to the same end as long as it is no more than 33 variables away.  Otherwise it is cut
off: what is left is the root of the hierarchy with the dimensions of the first 33 bounds.
-/

namespace BridgeMethods

namespace TypeView

/-- The bounds of a number of variables lead from a variable to another one, with a number of array
dimensions on the way. -/
inductive Passes (view : TypeView) (start : VariableUse) : Nat → Nat → VariableUse → Prop
  | start : Passes view start 0 0 start
  | bound {count dimensions : Nat} {use : VariableUse} {method : Option MethodEntry} {t : TypeExpr}
      {next : String} : Passes view start count dimensions use →
      view.meaning? use = some (.bound method t) → t.head = .typeVar next →
      Passes view start (count + 1) (dimensions + t.headDimensions) ⟨method, next⟩

/-- What a number of variables stand for leads from the first of them to a name, with a number of
array dimensions on the way.  The last variable is bound to an argument, or its bound is headed by
the name. -/
inductive EndsIn (view : TypeView) (start : VariableUse) : Nat → Nat → String → Prop
  | argument {count dimensions : Nat} {use : VariableUse} {erased : String} :
      view.Passes start count dimensions use → view.meaning? use = some (.argument erased) →
      EndsIn view start (count + 1) dimensions erased
  | named {count dimensions : Nat} {use : VariableUse} {method : Option MethodEntry} {t : TypeExpr}
      {name : String} : view.Passes start count dimensions use →
      view.meaning? use = some (.bound method t) → t.head = .named name →
      EndsIn view start (count + 1) (dimensions + t.headDimensions) name

variable {view : TypeView} {start use : VariableUse} {count dimensions budget : Nat}
  {name : String}

/-- Erasing a variable is erasing one that its bounds lead to, with as many steps less, and putting
the dimensions on the way behind it. -/
theorem Passes.eraseVar_eq (passes : view.Passes start count dimensions use) (rest : Nat) :
    view.eraseVar (rest + count) start.method start.name =
      arrayName (view.eraseVar rest use.method use.name) dimensions := by
  induction passes generalizing rest with
  | start => rfl
  | @bound count dimensions use method t next _ means heads ih =>
      rw [Nat.add_comm count 1, ← Nat.add_assoc, ih, eraseVar_succ, means]
      simp only [TypeExpr.erasure_eq_arrayName, heads, TypeExpr.Head.erasure]
      rw [arrayName_arrayName, Nat.add_comm dimensions]

/-- An end that is near enough is what a variable is erased to. -/
theorem EndsIn.eraseVar_eq (ends : view.EndsIn start count dimensions name)
    (near : count ≤ budget) :
    view.eraseVar budget start.method start.name = arrayName name dimensions := by
  cases ends with
  | @argument before _ use _ passes means =>
      obtain ⟨rest, rfl⟩ : ∃ rest, budget = rest + 1 + before := ⟨budget - before - 1, by omega⟩
      rw [passes.eraseVar_eq, eraseVar_succ, means]
  | @named before passed use method t _ passes means heads =>
      obtain ⟨rest, rfl⟩ : ∃ rest, budget = rest + 1 + before := ⟨budget - before - 1, by omega⟩
      rw [passes.eraseVar_eq, eraseVar_succ, means]
      simp only [TypeExpr.erasure_eq_arrayName, heads, TypeExpr.Head.erasure]
      rw [arrayName_arrayName, Nat.add_comm passed]

theorem Passes.inScope (passes : view.Passes start count dimensions use)
    (wellScoped : view.entry.WellScoped) (inScope : start.InScope view.entry) :
    use.InScope view.entry := by
  induction passes with
  | start => exact inScope
  | bound _ means heads ih => exact ih.next wellScoped means heads

/-- From a variable in scope one gets any number of variables on, or to an end before. -/
theorem endsIn_or_passes (wellScoped : view.entry.WellScoped) (inScope : start.InScope view.entry)
    (count : Nat) :
    (∃ nearer dimensions name, nearer ≤ count ∧ view.EndsIn start nearer dimensions name) ∨
      ∃ dimensions use, view.Passes start count dimensions use := by
  induction count with
  | zero => exact .inr ⟨0, start, .start⟩
  | succ count ih =>
      rcases ih with ⟨nearer, dimensions, name, near, ends⟩ | ⟨dimensions, use, passes⟩
      · exact .inl ⟨nearer, dimensions, name, Nat.le_succ_of_le near, ends⟩
      · obtain ⟨meaning, means⟩ := (passes.inScope wellScoped inScope).exists_meaning
        cases meaning with
        | argument erased =>
            exact .inl ⟨count + 1, dimensions, erased, Nat.le_refl _, .argument passes means⟩
        | bound method t =>
            cases heads : t.head with
            | named name => exact .inl ⟨count + 1, _, name, Nat.le_refl _, .named passes means heads⟩
            | typeVar next => exact .inr ⟨_, _, .bound passes means heads⟩

/-- A variable is erased exactly up to a limit of 33 variables. -/
structure ErasesUpToLimit (view : TypeView) (start : VariableUse) (erased : String) : Prop where
  /-- The erasure ends, in just one way, and expands no more variables than the limit. -/
  evaluates : ∃ expanded, view.Evaluates 0 start expanded erased ∧ expanded.length ≤ 33 ∧
    ∀ other otherErased, view.Evaluates 0 start other otherErased →
      other = expanded ∧ otherErased = erased
  /-- An end within the limit is what comes out. -/
  ends : ∀ count dimensions name, view.EndsIn start count dimensions name → count ≤ 33 →
    erased = arrayName name dimensions
  /-- If the limit is passed, the root comes out, with the dimensions up to there. -/
  cutOff : ∀ dimensions last, view.Passes start 33 dimensions last →
    erased = arrayName objectName dimensions
  /-- It is one or the other. -/
  cases : (∃ count dimensions name, count ≤ 33 ∧ view.EndsIn start count dimensions name) ∨
    ∃ dimensions last, view.Passes start 33 dimensions last

end TypeView

namespace ClassPool

variable {definitions : List ClassDef} {pool : ClassPool} {view : TypeView}

/-- In every view of an accepted pool, whatever its bounds are, a variable is erased to where its
bounds lead within 33 variables, and to the root if they lead farther or nowhere. -/
theorem eraseVar_exact_up_to_limit (accepted : ofDefinitions definitions = .ok pool)
    (reachable : pool.Reachable view) {method : Option MethodEntry} (owns : view.entry.Owns method)
    {name : String} (declared : name ∈ view.entry.variablesInScope method) :
    view.ErasesUpToLimit ⟨method, name⟩ (view.eraseVar maxBoundChain method name) := by
  have means := (ofDefinitions_eq_ok_iff.mp accepted).1
  have wellScoped := means.wellScoped reachable.entry_mem
  have inScope : VariableUse.InScope view.entry ⟨method, name⟩ := ⟨owns, declared⟩
  refine ⟨?_, fun count dimensions head ends near => ends.eraseVar_eq near,
    fun dimensions last passes => passes.eraseVar_eq 0,
    TypeView.endsIn_or_passes wellScoped inScope 33⟩
  have start : 0 + maxBoundChain = maxBoundChain := Nat.zero_add _
  obtain ⟨expanded, evaluates⟩ := view.exists_evaluates start ⟨method, name⟩
  exact ⟨expanded, evaluates, evaluates.length_le, fun _ _ other => other.unique evaluates⟩

/-- A class with two type parameters that bound each other, one of them in an array, and a method
whose type parameter is bounded by one of them. -/
def circularBounds : List ClassDef := [
  ((ClassDef.ofClass "a.Circle").withTypeParameter "T" (some "U[]")).withTypeParameter "U" (some "T")
    |>.withMethod {
      name := "m", typeParameters := [{ name := "M", bound := some "T" }], parameters := ["M"] }]

/-- The circle adds a dimension at every other variable and is cut off after 33 of them. -/
theorem eraseVar_exact_up_to_limit_circular :
    ∃ pool entry, ∃ method ∈ entry.methods, ofDefinitions circularBounds = .ok pool ∧
      entry ∈ pool.classes ∧ "M" ∈ entry.variablesInScope (some method) ∧
      (TypeView.declaration entry).ErasesUpToLimit ⟨some method, "M"⟩
        (arrayName objectName 16) := by
  obtain ⟨pool, entry, method, methodMember, accepted, member, declared, erased⟩ :
      ∃ pool entry, ∃ method ∈ entry.methods, ofDefinitions circularBounds = .ok pool ∧
        entry ∈ pool.classes ∧ "M" ∈ entry.variablesInScope (some method) ∧
        (TypeView.declaration entry).eraseVar maxBoundChain (some method) "M" =
          arrayName objectName 16 :=
    ⟨_, _, _, List.mem_cons_self, rfl, List.mem_cons_self, by decide +kernel, by decide +kernel⟩
  refine ⟨pool, entry, method, methodMember, accepted, member, declared, ?_⟩
  rw [← erased]
  exact eraseVar_exact_up_to_limit accepted (.declaration member)
    (ClassEntry.owns_some methodMember) declared

end ClassPool

end BridgeMethods
