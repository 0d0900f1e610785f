import BridgeMethods.Proofs.TypeExpr.Parsing
import BridgeMethods.Proofs.TypeExpr.Variables

/-!
# Renaming in type expressions

The leaves of an expression are the names that stand alone, without type arguments.  Only they can
come to denote variables.  So a new name for a variable is written by renaming leaves, while the
names in front of type arguments stay; and once names have been resolved it is the variables that
are renamed.  `resolve_rename` says when the one comes to the other.
-/

namespace BridgeMethods.TypeExpr

open Text

section Rename

variable (r : String → String)

mutual

/-- Renames the leaves of an expression. -/
def rename : TypeExpr → TypeExpr
  | .named name => .named (r name)
  | .typeVar name => .typeVar (r name)
  | .generic head arguments => .generic head (renameList arguments)
  | .array component => .array (rename component)
  | .wildcard upper lower => .wildcard (renameOption upper) (renameOption lower)

/-- Renames the leaves of every expression of a list. -/
def renameList : List TypeExpr → List TypeExpr
  | [] => []
  | t :: ts => rename t :: renameList ts

/-- Renames the leaves of an optional bound. -/
def renameOption : Option TypeExpr → Option TypeExpr
  | none => none
  | some t => some (rename t)

end

theorem renameList_eq_map (ts : List TypeExpr) :
    renameList r ts = ts.map (rename r) := by
  induction ts with
  | nil => rfl
  | cons t ts ih => simp [renameList, ih]

theorem renameOption_eq_map (t : Option TypeExpr) :
    renameOption r t = t.map (rename r) := by
  cases t <;> rfl

/-- Renames the variables of an expression. -/
def renameVars (t : TypeExpr) : TypeExpr :=
  t.substitute fun name => .typeVar (r name)

end Rename

mutual

/-- The names in an expression that have no type arguments. -/
def leaves : TypeExpr → List String
  | .named name => [name]
  | .typeVar name => [name]
  | .generic _ arguments => leavesList arguments
  | .array component => leaves component
  | .wildcard upper lower => leavesOption upper ++ leavesOption lower

/-- The leaves of the expressions of a list. -/
def leavesList : List TypeExpr → List String
  | [] => []
  | t :: ts => leaves t ++ leavesList ts

/-- The leaves of an optional bound. -/
def leavesOption : Option TypeExpr → List String
  | none => []
  | some t => leaves t

end

theorem mem_leavesList_iff {name : String} {ts : List TypeExpr} :
    name ∈ leavesList ts ↔ ∃ t ∈ ts, name ∈ t.leaves := by
  induction ts with
  | nil => simp [leavesList]
  | cons t ts ih => simp [leavesList, ih]

theorem mem_leaves_wildcard_iff {name : String} {upper lower : Option TypeExpr} :
    name ∈ (wildcard upper lower).leaves ↔
      (∃ t, upper = some t ∧ name ∈ t.leaves) ∨ ∃ t, lower = some t ∧ name ∈ t.leaves := by
  cases upper <;> cases lower <;> simp [leaves, leavesOption]

variable {r : String → String}

/-! ## Renaming before and after resolution -/

theorem substitute_generic (substitution : String → TypeExpr) (head : String)
    (arguments : List TypeExpr) :
    (generic head arguments).substitute substitution =
      generic head (arguments.map (·.substitute substitution)) := by
  have list_eq (ts : List TypeExpr) :
      substituteList substitution ts = ts.map (·.substitute substitution) := by
    induction ts with
    | nil => rfl
    | cons t ts ih => simp [substituteList, ih]
  rw [substitute, list_eq]

theorem substitute_wildcard (substitution : String → TypeExpr) (upper lower : Option TypeExpr) :
    (wildcard upper lower).substitute substitution =
      wildcard (upper.map (·.substitute substitution)) (lower.map (·.substitute substitution)) := by
  cases upper <;> cases lower <;> rfl

/-- Names that are renamed from one scope to another can be resolved first and renamed then. -/
theorem resolve_rename {isVariable isVariable' : String → Bool} {t : TypeExpr}
    (each : ∀ name ∈ t.leaves, isVariable' (r name) = isVariable name ∧
      (isVariable name = false → r name = name)) :
    (t.rename r).resolve isVariable' = (t.resolve isVariable).renameVars r := by
  induction t with
  | named name =>
      obtain ⟨same, kept⟩ := each name List.mem_cons_self
      rw [rename, resolve, resolve, same]
      cases isVar : isVariable name with
      | true => rfl
      | false =>
          rw [kept isVar]
          rfl
  | typeVar name => rfl
  | generic head arguments ih =>
      rw [rename, resolve, resolve, renameVars, substitute_generic, renameList_eq_map,
        resolveList_eq_map, resolveList_eq_map, List.map_map, List.map_map]
      apply congrArg (generic head)
      apply List.map_congr_left
      intro t member
      exact ih t member fun name leaf => each name (mem_leavesList_iff.mpr ⟨t, member, leaf⟩)
  | array component ih =>
      rw [rename, resolve, resolve, renameVars, substitute]
      exact congrArg array (ih each)
  | wildcard upper lower upperIh lowerIh =>
      rw [rename, resolve, resolve, renameVars, substitute_wildcard, renameOption_eq_map,
        renameOption_eq_map, resolveOption_eq_map, resolveOption_eq_map, resolveOption_eq_map,
        resolveOption_eq_map, Option.map_map, Option.map_map, Option.map_map, Option.map_map]
      apply congrArg₂ wildcard
      · apply Option.map_congr
        intro t isUpper
        exact upperIh t isUpper fun name leaf =>
          each name (mem_leaves_wildcard_iff.mpr (.inl ⟨t, isUpper, leaf⟩))
      · apply Option.map_congr
        intro t isLower
        exact lowerIh t isLower fun name leaf =>
          each name (mem_leaves_wildcard_iff.mpr (.inr ⟨t, isLower, leaf⟩))

theorem erasure_renameVars (eraseVar : String → String) (t : TypeExpr) :
    (t.renameVars r).erasure eraseVar = t.erasure fun name => eraseVar (r name) :=
  erasure_substitute _ eraseVar t

theorem isWildcard_renameVars (t : TypeExpr) : (t.renameVars r).isWildcard = t.isWildcard := by
  cases t <;> rfl

/-! ## Nothing renamed -/

theorem rename_id (t : TypeExpr) : t.rename id = t := by
  induction t with
  | named name => rfl
  | typeVar name => rfl
  | generic head arguments ih =>
      rw [rename, renameList_eq_map, List.map_congr_left ih, List.map_id']
  | array component ih => rw [rename, ih]
  | wildcard upper lower upperIh lowerIh =>
      rw [rename, renameOption_eq_map, renameOption_eq_map, Option.map_congr upperIh,
        Option.map_congr lowerIh, Option.map_id', Option.map_id']

theorem renameVars_id (t : TypeExpr) : t.renameVars id = t := by
  induction t with
  | named name => rfl
  | typeVar name => rfl
  | generic head arguments ih =>
      rw [renameVars, substitute_generic]
      exact congrArg (generic head) ((List.map_congr_left ih).trans (List.map_id' arguments))
  | array component ih => exact congrArg array ih
  | wildcard upper lower upperIh lowerIh =>
      rw [renameVars, substitute_wildcard]
      exact congrArg₂ wildcard ((Option.map_congr upperIh).trans Option.map_id')
        ((Option.map_congr lowerIh).trans Option.map_id')

/-! ## Renamed expressions can be written -/

theorem isType_rename (names : ∀ name, IsName name → IsName (r name)) (t : TypeExpr) :
    (t.IsType → (t.rename r).IsType) ∧ (t.IsArgument → (t.rename r).IsArgument) := by
  induction t with
  | named name =>
      have type : IsType (.named name) → (rename r (.named name)).IsType := by
        rintro ⟨isName⟩
        exact .named (names name isName)
      exact ⟨type, fun isArgument => .type (type (isArgument.isType rfl))⟩
  | typeVar name => exact ⟨(nomatch ·), fun isArgument => nomatch isArgument.isType rfl⟩
  | generic head arguments ih =>
      have type : IsType (.generic head arguments) →
          (rename r (.generic head arguments)).IsType := by
        rintro (_ | ⟨isName, nonempty, areArguments⟩)
        rw [rename, renameList_eq_map]
        refine .generic isName (by simpa using nonempty) (List.forall_mem_map.mpr ?_)
        intro t member
        exact (ih t member).2 (areArguments t member)
      exact ⟨type, fun isArgument => .type (type (isArgument.isType rfl))⟩
  | array component ih =>
      have type : IsType (.array component) → (rename r (.array component)).IsType := by
        rintro (_ | _ | isType)
        exact .array (ih.1 isType)
      exact ⟨type, fun isArgument => .type (type (isArgument.isType rfl))⟩
  | wildcard upper lower upperIh lowerIh =>
      refine ⟨(nomatch ·), ?_⟩
      rintro (isType | _ | isType | isType)
      · cases isType
      · exact .unbounded
      · exact .extending ((upperIh _ rfl).1 isType)
      · exact .super ((lowerIh _ rfl).1 isType)

theorem depth_rename (t : TypeExpr) : (t.rename r).depth = t.depth := by
  induction t with
  | named name => rfl
  | typeVar name => rfl
  | generic head arguments ih =>
      rw [rename, depth, depth]
      induction arguments with
      | nil => rfl
      | cons t ts tsIh =>
          have rest := tsIh fun u member => ih u (List.mem_cons_of_mem t member)
          rw [renameList, depthList, depthList, ih t List.mem_cons_self]
          omega
  | array component ih => exact ih
  | wildcard upper lower upperIh lowerIh =>
      have bound_eq {bound : Option TypeExpr} (ih : ∀ t ∈ bound, (t.rename r).depth = t.depth) :
          depthOption (renameOption r bound) = depthOption bound := by
        cases bound with
        | none => rfl
        | some t => exact ih t rfl
      rw [rename, depth, depth, bound_eq upperIh, bound_eq lowerIh]

theorem dimensions_rename (t : TypeExpr) : (t.rename r).dimensions = t.dimensions := by
  induction t with
  | named name => rfl
  | typeVar name => rfl
  | generic head arguments ih =>
      rw [rename, dimensions, dimensions]
      induction arguments with
      | nil => rfl
      | cons t ts tsIh =>
          rw [renameList, dimensionsList, dimensionsList, ih t List.mem_cons_self,
            tsIh fun u member => ih u (List.mem_cons_of_mem t member)]
  | array component ih => exact congrArg (· + 1) ih
  | wildcard upper lower upperIh lowerIh =>
      have bound_eq {bound : Option TypeExpr}
          (ih : ∀ t ∈ bound, (t.rename r).dimensions = t.dimensions) :
          dimensionsOption (renameOption r bound) = dimensionsOption bound := by
        cases bound with
        | none => rfl
        | some t => exact ih t rfl
      rw [rename, dimensions, dimensions, bound_eq upperIh, bound_eq lowerIh]

theorem WellFormed.rename (names : ∀ name, IsName name → IsName (r name)) {t : TypeExpr}
    (wellFormed : t.WellFormed) : (t.rename r).WellFormed where
  isType := (isType_rename names t).1 wellFormed.isType
  depth_le := depth_rename t ▸ wellFormed.depth_le
  dimensions_le := dimensions_rename t ▸ wellFormed.dimensions_le

end BridgeMethods.TypeExpr
