import BridgeMethods.Proofs.TypeExpr.Grammar

/-!
# Type variables in expressions

A written expression mentions no type variables, and resolving it introduces none but those of the
scope.  Variables are replaced by expressions with `substitute`.  Erasure looks at no more than one
variable, the one in which the spine of the expression ends, and it commutes with substitution.
-/

namespace BridgeMethods.TypeExpr

/-- A type variable occurs somewhere in an expression. -/
inductive Mentions (name : String) : TypeExpr → Prop
  | typeVar : Mentions name (.typeVar name)
  | generic {head : String} {arguments : List TypeExpr} {t : TypeExpr} : t ∈ arguments →
      Mentions name t → Mentions name (.generic head arguments)
  | array {component : TypeExpr} : Mentions name component → Mentions name (.array component)
  | upper {upper : TypeExpr} {lower : Option TypeExpr} : Mentions name upper →
      Mentions name (.wildcard (some upper) lower)
  | lower {upper : Option TypeExpr} {lower : TypeExpr} : Mentions name lower →
      Mentions name (.wildcard upper (some lower))

theorem mentions_wildcard_iff {name : String} {upper lower : Option TypeExpr} :
    (wildcard upper lower).Mentions name ↔
      (∃ t, upper = some t ∧ t.Mentions name) ∨ ∃ t, lower = some t ∧ t.Mentions name := by
  constructor
  · intro mentions
    cases mentions with
    | upper mentions => exact .inl ⟨_, rfl, mentions⟩
    | lower mentions => exact .inr ⟨_, rfl, mentions⟩
  · rintro (⟨t, rfl, mentions⟩ | ⟨t, rfl, mentions⟩)
    · exact .upper mentions
    · exact .lower mentions

theorem IsArgument.not_mentions {name : String} {t : TypeExpr} (isArgument : t.IsArgument) :
    ¬ t.Mentions name := by
  intro mentions
  induction t with
  | named other => cases mentions
  | typeVar other => cases isArgument.isType rfl
  | generic head arguments ih =>
      cases isArgument.isType rfl with
      | generic _ _ areArguments =>
          cases mentions with
          | generic member mentions => exact ih _ member (areArguments _ member) mentions
  | array component ih =>
      cases isArgument.isType rfl with
      | array componentIsType =>
          cases mentions with
          | array mentions => exact ih (.type componentIsType) mentions
  | wildcard upper lower upperIh lowerIh =>
      cases mentions with
      | upper mentions =>
          rcases isArgument with ⟨⟨⟩⟩ | _ | boundIsType
          exact upperIh _ rfl (.type boundIsType) mentions
      | lower mentions =>
          rcases isArgument with ⟨⟨⟩⟩ | _ | _ | boundIsType
          exact lowerIh _ rfl (.type boundIsType) mentions

/-- Resolution turns only the names of the scope into variables. -/
theorem Mentions.of_resolve {isVariable : String → Bool} {name : String} {t : TypeExpr}
    (mentions : (t.resolve isVariable).Mentions name) : t.Mentions name ∨ isVariable name = true := by
  induction t with
  | named other =>
      rw [resolve] at mentions
      split_ifs at mentions with inScope
      · cases mentions
        exact .inr inScope
      · cases mentions
  | typeVar other => exact .inl mentions
  | generic head arguments ih =>
      rw [resolve, resolveList_eq_map] at mentions
      cases mentions with
      | generic member mentions =>
          rcases List.mem_map.mp member with ⟨written, writtenMember, rfl⟩
          exact (ih written writtenMember mentions).imp_left (.generic writtenMember)
  | array component ih =>
      rw [resolve] at mentions
      cases mentions with
      | array mentions => exact (ih mentions).imp_left .array
  | wildcard upper lower upperIh lowerIh =>
      rw [resolve, resolveOption_eq_map, resolveOption_eq_map, mentions_wildcard_iff] at mentions
      rcases mentions with ⟨t, resolved, mentions⟩ | ⟨t, resolved, mentions⟩
      · rcases Option.map_eq_some_iff.mp resolved with ⟨written, rfl, rfl⟩
        exact (upperIh written rfl mentions).imp_left .upper
      · rcases Option.map_eq_some_iff.mp resolved with ⟨written, rfl, rfl⟩
        exact (lowerIh written rfl mentions).imp_left .lower

/-! ## Substitution -/

section Substitute

variable (substitution : String → TypeExpr)

mutual

/-- Replaces each type variable by an expression. -/
def substitute : TypeExpr → TypeExpr
  | .named name => .named name
  | .typeVar name => substitution name
  | .generic head arguments => .generic head (substituteList arguments)
  | .array component => .array (substitute component)
  | .wildcard upper lower => .wildcard (substituteOption upper) (substituteOption lower)

/-- Substitution in every expression of a list. -/
def substituteList : List TypeExpr → List TypeExpr
  | [] => []
  | t :: ts => substitute t :: substituteList ts

/-- Substitution in an optional bound. -/
def substituteOption : Option TypeExpr → Option TypeExpr
  | none => none
  | some t => some (substitute t)

end

end Substitute

/-- The variable that the erasure of an expression asks for: the one in which the expression ends
if components are taken of arrays and upper bounds of wildcards. -/
def erasedVariable? : TypeExpr → Option String
  | .named _ => none
  | .typeVar name => some name
  | .generic _ _ => none
  | .array component => component.erasedVariable?
  | .wildcard (some upper) _ => upper.erasedVariable?
  | .wildcard none _ => none

theorem Mentions.of_erasedVariable? {name : String} {t : TypeExpr}
    (asked : t.erasedVariable? = some name) : t.Mentions name := by
  induction t with
  | named other => cases asked
  | typeVar other =>
      cases asked
      exact .typeVar
  | generic head arguments => cases asked
  | array component ih => exact .array (ih asked)
  | wildcard upper lower upperIh =>
      cases upper with
      | none => cases asked
      | some upper => exact .upper (upperIh upper rfl asked)

theorem erasure_congr {f g : String → String} {t : TypeExpr}
    (same : ∀ name, t.erasedVariable? = some name → f name = g name) :
    t.erasure f = t.erasure g := by
  induction t with
  | named name => rfl
  | typeVar name => exact same name rfl
  | generic head arguments => rfl
  | array component ih => rw [erasure, erasure, ih same]
  | wildcard upper lower upperIh =>
      cases upper with
      | none => rfl
      | some upper => exact upperIh upper rfl same

/-- Substituting first and erasing last is the same as erasing what the variables stand for. -/
theorem erasure_substitute (substitution : String → TypeExpr) (f : String → String)
    (t : TypeExpr) :
    (t.substitute substitution).erasure f = t.erasure fun name => (substitution name).erasure f := by
  induction t with
  | named name => rfl
  | typeVar name => rfl
  | generic head arguments => rfl
  | array component ih => rw [substitute, erasure, erasure, ih]
  | wildcard upper lower upperIh =>
      cases upper with
      | none => rfl
      | some upper => exact upperIh upper rfl

end BridgeMethods.TypeExpr
