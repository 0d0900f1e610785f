import BridgeMethods.Proofs.TypeExpr.Heads
import BridgeMethods.Proofs.TypeExpr.Parsing

/-!
# Laws of resolution

Resolving an expression marks names of a scope as variables and leaves everything else as it is: the
written form does not change, what has been marked once stays marked, and the order in which scopes
are gone through does not matter.  Only a name that stands alone can be marked.  Erasure therefore
notices resolution only if such a name heads the expression; the name in front of type arguments
does not count, even if the scope knows a variable of that name.
-/

namespace BridgeMethods.TypeExpr

/-! ## Scopes one after the other -/

/-- Resolving in one scope after another is resolving in both of them. -/
theorem resolve_resolve (first second : String → Bool) (t : TypeExpr) :
    (t.resolve first).resolve second = t.resolve fun name => first name || second name := by
  induction t with
  | named name =>
      rw [resolve, resolve]
      cases marked : first name with
      | true => rfl
      | false => rfl
  | typeVar name => rfl
  | generic head arguments ih =>
      rw [resolve, resolve, resolve, resolveList_eq_map, resolveList_eq_map, resolveList_eq_map,
        List.map_map]
      exact congrArg (generic head) (List.map_congr_left ih)
  | array component ih => exact congrArg array ih
  | wildcard upper lower upperIh lowerIh =>
      rw [resolve, resolve, resolve]
      simp only [resolveOption_eq_map, Option.map_map]
      exact congrArg₂ wildcard (Option.map_congr upperIh) (Option.map_congr lowerIh)

theorem resolve_idem (scope : String → Bool) (t : TypeExpr) :
    (t.resolve scope).resolve scope = t.resolve scope := by
  rw [resolve_resolve]
  simp only [Bool.or_self]

theorem resolve_comm (first second : String → Bool) (t : TypeExpr) :
    (t.resolve first).resolve second = (t.resolve second).resolve first := by
  rw [resolve_resolve, resolve_resolve]
  simp only [Bool.or_comm]

/-- Without a scope there is nothing to mark. -/
theorem resolve_false (t : TypeExpr) : (t.resolve fun _ => false) = t := by
  induction t with
  | named name => rfl
  | typeVar name => rfl
  | generic head arguments ih =>
      rw [resolve, resolveList_eq_map, List.map_congr_left ih, List.map_id']
  | array component ih => exact congrArg array ih
  | wildcard upper lower upperIh lowerIh =>
      rw [resolve, resolveOption_eq_map, resolveOption_eq_map, Option.map_congr upperIh,
        Option.map_congr lowerIh, Option.map_id', Option.map_id']

/-! ## The written form -/

/-- A variable is written like the name that it was. -/
theorem print_resolve (scope : String → Bool) (t : TypeExpr) :
    (t.resolve scope).print = t.print := by
  induction t with
  | named name =>
      rw [resolve]
      split_ifs <;> rfl
  | typeVar name => rfl
  | generic head arguments ih =>
      rw [resolve, print, print, printList_eq_map, printList_eq_map, resolveList_eq_map,
        List.map_map]
      have argumentsWritten : arguments.map (print ∘ resolve scope) = arguments.map print :=
        List.map_congr_left ih
      rw [argumentsWritten]
  | array component ih => rw [resolve, print, print, ih]
  | wildcard upper lower upperIh lowerIh =>
      cases upper with
      | some upper => exact congrArg ("? extends " ++ ·) (upperIh upper rfl)
      | none =>
          cases lower with
          | some lower => exact congrArg ("? super " ++ ·) (lowerIh lower rfl)
          | none => rfl

/-! ## Erasure -/

/-- The name that heads an expression, if it stands there without type arguments. -/
def bareHead? : TypeExpr → Option String
  | .named name => some name
  | .typeVar _ => none
  | .generic _ _ => none
  | .array component => component.bareHead?
  | .wildcard (some upper) _ => upper.bareHead?
  | .wildcard none _ => none

theorem headDimensions_resolve (scope : String → Bool) (t : TypeExpr) :
    (t.resolve scope).headDimensions = t.headDimensions := by
  induction t with
  | named name =>
      rw [resolve]
      split_ifs <;> rfl
  | typeVar name => rfl
  | generic head arguments => rfl
  | array component ih => exact congrArg (· + 1) ih
  | wildcard upper lower upperIh =>
      cases upper with
      | none => rfl
      | some upper => exact upperIh upper rfl

/-- Resolution changes the head of an expression only where a name of the scope stands alone. -/
theorem head_resolve (scope : String → Bool) (t : TypeExpr) :
    (t.resolve scope).head =
      match t.bareHead?.filter scope with
      | some name => .typeVar name
      | none => t.head := by
  induction t with
  | named name =>
      rw [resolve, bareHead?, Option.filter_some]
      split_ifs <;> rfl
  | typeVar name => rfl
  | generic head arguments => rfl
  | array component ih => exact ih
  | wildcard upper lower upperIh =>
      cases upper with
      | none => rfl
      | some upper => exact upperIh upper rfl

theorem erasure_resolve (scope : String → Bool) (eraseVar : String → String) (t : TypeExpr) :
    (t.resolve scope).erasure eraseVar =
      match t.bareHead?.filter scope with
      | some name => arrayName (eraseVar name) t.headDimensions
      | none => t.erasure eraseVar := by
  rw [erasure_eq_arrayName, headDimensions_resolve, head_resolve]
  cases t.bareHead?.filter scope with
  | none => exact (erasure_eq_arrayName eraseVar t).symm
  | some name => rfl

/-- Resolution adds up scopes and keeps the written form, and erasure sees no more of it than a
name of the scope that heads the expression without type arguments. -/
theorem resolve_laws :
    (∀ (t : TypeExpr) (first second : String → Bool),
      (t.resolve first).resolve second = t.resolve (fun name => first name || second name) ∧
        (t.resolve first).resolve first = t.resolve first ∧
        (t.resolve first).resolve second = (t.resolve second).resolve first) ∧
    (∀ t : TypeExpr, (t.resolve fun _ => false) = t) ∧
    (∀ (t : TypeExpr) (scope : String → Bool), (t.resolve scope).print = t.print) ∧
    (∀ (signature : String) (t : TypeExpr) (scope : String → Bool),
      parse signature = .ok t → parse (t.resolve scope).print = .ok t) ∧
    (∀ (t : TypeExpr) (scope : String → Bool) (eraseVar : String → String),
      (t.resolve scope).erasure eraseVar =
        match t.bareHead?.filter scope with
        | some name => arrayName (eraseVar name) t.headDimensions
        | none => t.erasure eraseVar) := by
  refine ⟨fun t first second => ?_, resolve_false, fun t scope => print_resolve scope t,
    fun signature t scope parsed => ?_, fun t scope eraseVar => erasure_resolve scope eraseVar t⟩
  · exact ⟨resolve_resolve first second t, resolve_idem first t, resolve_comm first second t⟩
  · rw [print_resolve]
    exact parse_print (wellFormed_of_parse parsed)

theorem resolve_laws_bounded :
    ∃ t, parse "T<? extends T[],V>[ ]" = .ok t ∧
      t.resolve ["T"].contains =
        .array (.generic "T" [.wildcard (some (.array (.typeVar "T"))) none, .named "V"]) ∧
      parse (t.resolve ["T"].contains).print = .ok t :=
  ⟨.array (.generic "T" [.wildcard (some (.array (.named "T"))) none, .named "V"]), rfl,
    by decide +kernel, resolve_laws.2.2.2.1 "T<? extends T[],V>[ ]" _ ["T"].contains rfl⟩

end BridgeMethods.TypeExpr
