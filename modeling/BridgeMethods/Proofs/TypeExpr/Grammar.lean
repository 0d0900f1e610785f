import BridgeMethods.Proofs.TypeExpr.Tokens
import BridgeMethods.TypeExpr.Parser

/-!
# The grammar of type expressions

A type is a name, a generic type with at least one argument, or an array of a type; an argument is
a type or a wildcard with at most one bound, which is a type again.  Nesting depth and the number
of array dimensions are limited in a whole expression.  Expressions with these properties are
well formed: they are the ones that can be written.

`symbols` lists what has to be written, and `tokens_print` says that the written form of a well
formed expression consists of just that.
-/

namespace BridgeMethods.TypeExpr

open Text

/-- Induction on type expressions, with a hypothesis for each argument and for each bound. -/
@[elab_as_elim, induction_eliminator]
theorem induct {motive : TypeExpr → Prop}
    (named : ∀ name, motive (.named name))
    (typeVar : ∀ name, motive (.typeVar name))
    (generic : ∀ head arguments, (∀ t ∈ arguments, motive t) → motive (.generic head arguments))
    (array : ∀ component, motive component → motive (.array component))
    (wildcard : ∀ upper lower, (∀ t ∈ upper, motive t) → (∀ t ∈ lower, motive t) →
      motive (.wildcard upper lower)) :
    ∀ t, motive t
  | .named name => named name
  | .typeVar name => typeVar name
  | .generic head arguments =>
      generic head arguments fun t _ => induct named typeVar generic array wildcard t
  | .array component =>
      array component (induct named typeVar generic array wildcard component)
  | .wildcard upper lower =>
      wildcard upper lower (fun t _ => induct named typeVar generic array wildcard t)
        (fun t _ => induct named typeVar generic array wildcard t)
termination_by t => sizeOf t
decreasing_by
  · have smaller := List.sizeOf_lt_of_mem ‹t ∈ arguments›
    rw [TypeExpr.generic.sizeOf_spec]
    omega
  · rw [TypeExpr.array.sizeOf_spec]
    omega
  · obtain rfl : upper = some t := ‹t ∈ upper›
    rw [TypeExpr.wildcard.sizeOf_spec, Option.some.sizeOf_spec]
    omega
  · obtain rfl : lower = some t := ‹t ∈ lower›
    rw [TypeExpr.wildcard.sizeOf_spec, Option.some.sizeOf_spec]
    omega

/-! ## Well formed expressions -/

mutual

/-- What can stand for itself: a name, a generic type or an array.  Names are not resolved yet, so
there are no type variables. -/
inductive IsType : TypeExpr → Prop
  | named {name : String} : IsName name → IsType (.named name)
  | generic {head : String} {arguments : List TypeExpr} : IsName head → arguments ≠ [] →
      (∀ t ∈ arguments, IsArgument t) → IsType (.generic head arguments)
  | array {component : TypeExpr} : IsType component → IsType (.array component)

/-- What can stand in an argument list: a type, or a wildcard with at most one bound. -/
inductive IsArgument : TypeExpr → Prop
  | type {t : TypeExpr} : IsType t → IsArgument t
  | unbounded : IsArgument (.wildcard none none)
  | extending {bound : TypeExpr} : IsType bound → IsArgument (.wildcard (some bound) none)
  | super {bound : TypeExpr} : IsType bound → IsArgument (.wildcard none (some bound))

end

mutual

/-- The nesting depth of an expression: each argument list is one level, and a wildcard is as deep
as its bound. -/
def depth : TypeExpr → Nat
  | .named _ => 1
  | .typeVar _ => 1
  | .generic _ arguments => 1 + depthList arguments
  | .array component => depth component
  | .wildcard upper lower => max (depthOption upper) (depthOption lower)

/-- The depth of the deepest expression of a list. -/
def depthList : List TypeExpr → Nat
  | [] => 0
  | t :: ts => max (depth t) (depthList ts)

/-- The depth of an optional bound. -/
def depthOption : Option TypeExpr → Nat
  | none => 0
  | some t => depth t

end

mutual

/-- The number of array dimensions anywhere in an expression. -/
def dimensions : TypeExpr → Nat
  | .named _ => 0
  | .typeVar _ => 0
  | .generic _ arguments => dimensionsList arguments
  | .array component => dimensions component + 1
  | .wildcard upper lower => dimensionsOption upper + dimensionsOption lower

/-- The number of array dimensions in the expressions of a list. -/
def dimensionsList : List TypeExpr → Nat
  | [] => 0
  | t :: ts => dimensions t + dimensionsList ts

/-- The number of array dimensions in an optional bound. -/
def dimensionsOption : Option TypeExpr → Nat
  | none => 0
  | some t => dimensions t

end

/-- An expression that can be written. -/
structure WellFormed (t : TypeExpr) : Prop where
  isType : t.IsType
  depth_le : t.depth ≤ maxNesting
  dimensions_le : t.dimensions ≤ maxDimensions

theorem IsArgument.isType {t : TypeExpr} (isArgument : t.IsArgument)
    (notWildcard : t.isWildcard = false) : t.IsType := by
  cases isArgument with
  | type isType => exact isType
  | unbounded => contradiction
  | extending _ => contradiction
  | super _ => contradiction

theorem IsType.one_le_depth {t : TypeExpr} (isType : t.IsType) : 1 ≤ t.depth := by
  induction t with
  | named name => exact Nat.le_refl 1
  | typeVar name => exact Nat.le_refl 1
  | generic head arguments => exact Nat.le_add_right 1 _
  | array component ih =>
      cases isType with
      | array componentIsType => exact ih componentIsType
  | wildcard upper lower => cases isType

theorem depthList_le_iff {ts : List TypeExpr} {n : Nat} :
    depthList ts ≤ n ↔ ∀ t ∈ ts, t.depth ≤ n := by
  induction ts with
  | nil => simp [depthList]
  | cons t ts ih => rw [depthList, Nat.max_le, ih, List.forall_mem_cons]

theorem dimensionsList_append (ss ts : List TypeExpr) :
    dimensionsList (ss ++ ts) = dimensionsList ss + dimensionsList ts := by
  induction ss with
  | nil => simp [dimensionsList]
  | cons s ss ih => simp [dimensionsList, ih, Nat.add_assoc]

theorem dimensionsList_reverse (ts : List TypeExpr) :
    dimensionsList ts.reverse = dimensionsList ts := by
  induction ts with
  | nil => rfl
  | cons t ts ih =>
      simp [dimensionsList_append, dimensionsList, ih, Nat.add_comm]

/-! ## The written form -/

mutual

/-- The symbols of the written form. -/
def symbols : TypeExpr → List Symbol
  | .named name => [.word name]
  | .typeVar name => [.word name]
  | .generic head arguments =>
      .word head :: .mark '<' :: (symbolsList arguments ++ [.mark '>'])
  | .array component => symbols component ++ [.mark '[', .mark ']']
  | .wildcard (some upper) _ => .mark '?' :: .word "extends" :: symbols upper
  | .wildcard none (some lower) => .mark '?' :: .word "super" :: symbols lower
  | .wildcard none none => [.mark '?']

/-- The symbols of the expressions of a list with commas between them. -/
def symbolsList : List TypeExpr → List Symbol
  | [] => []
  | [t] => symbols t
  | t :: u :: ts => symbols t ++ .mark ',' :: symbolsList (u :: ts)

end

theorem tokens_name {name : String} (isName : IsName name) :
    Symbol.tokens name = [.word name] := by
  rw [Symbol.tokens, Symbol.ofChars_word isName.1 isName.2, String.ofList_toList]

theorem tokens_append_of_mark {left right : String} {b : Char}
    (head : right.toList.head? = some b) (mark : isIdentifier b = false) :
    Symbol.tokens (left ++ right) = Symbol.tokens left ++ Symbol.tokens right := by
  rw [Symbol.tokens, String.toList_append, Symbol.ofChars_append (Symbol.apart_of_right head mark)]
  rfl

theorem tokens_mark_append {left right : String} {a : Char}
    (last : left.toList.getLast? = some a) (mark : isIdentifier a = false) :
    Symbol.tokens (left ++ right) = Symbol.tokens left ++ Symbol.tokens right := by
  rw [Symbol.tokens, String.toList_append, Symbol.ofChars_append (Symbol.apart_of_left last mark)]
  rfl

private theorem tokens_joinWith_printList {ts : List TypeExpr}
    (each : ∀ t ∈ ts, Symbol.tokens t.print = t.symbols) :
    Symbol.tokens (joinWith ", " (printList ts)) = symbolsList ts := by
  induction ts with
  | nil => decide +kernel
  | cons t ts ih =>
      have first := each t List.mem_cons_self
      cases ts with
      | nil => exact first
      | cons u ts =>
          have rest := ih fun v member => each v (List.mem_cons_of_mem t member)
          calc
            Symbol.tokens (t.print ++ ", " ++ joinWith ", " (printList (u :: ts))) =
                Symbol.tokens (t.print ++ ", ") ++
                  Symbol.tokens (joinWith ", " (printList (u :: ts))) :=
              tokens_mark_append (a := ' ') (by simp) (by decide)
            _ = Symbol.tokens t.print ++ Symbol.tokens ", " ++ symbolsList (u :: ts) := by
              rw [tokens_append_of_mark (b := ',') (by simp) (by decide), rest]
            _ = t.symbols ++ [.mark ','] ++ symbolsList (u :: ts) := by
              rw [first, show Symbol.tokens ", " = [.mark ','] by decide +kernel]
            _ = symbolsList (t :: u :: ts) := by
              rw [symbolsList, List.append_assoc, List.singleton_append]

private theorem tokens_print_of_grammar (t : TypeExpr) :
    (t.IsType → Symbol.tokens t.print = t.symbols) ∧
      (t.IsArgument → Symbol.tokens t.print = t.symbols) := by
  induction t with
  | named name =>
      have type : IsType (.named name) → Symbol.tokens name = [.word name] := by
        rintro ⟨isName⟩
        exact tokens_name isName
      exact ⟨type, fun isArgument => type (isArgument.isType rfl)⟩
  | typeVar name =>
      exact ⟨(nomatch ·), fun isArgument => nomatch isArgument.isType rfl⟩
  | generic head arguments ih =>
      have type : IsType (.generic head arguments) →
          Symbol.tokens (print (.generic head arguments)) = symbols (.generic head arguments) := by
        rintro (_ | ⟨isName, _, areArguments⟩)
        have inner := tokens_joinWith_printList fun t member =>
          (ih t member).2 (areArguments t member)
        calc
          Symbol.tokens (head ++ "<" ++ joinWith ", " (printList arguments) ++ ">") =
              Symbol.tokens (head ++ "<" ++ joinWith ", " (printList arguments)) ++
                Symbol.tokens ">" :=
            tokens_append_of_mark (b := '>') (by simp) (by decide)
          _ = Symbol.tokens (head ++ "<") ++
                Symbol.tokens (joinWith ", " (printList arguments)) ++ Symbol.tokens ">" := by
            rw [tokens_mark_append (a := '<') (by simp) (by decide)]
          _ = Symbol.tokens head ++ Symbol.tokens "<" ++ symbolsList arguments ++
                Symbol.tokens ">" := by
            rw [tokens_append_of_mark (b := '<') (by simp) (by decide), inner]
          _ = [.word head] ++ [.mark '<'] ++ symbolsList arguments ++ [.mark '>'] := by
            rw [tokens_name isName, show Symbol.tokens "<" = [.mark '<'] by decide +kernel,
              show Symbol.tokens ">" = [.mark '>'] by decide +kernel]
          _ = symbols (.generic head arguments) := by
            simp [symbols]
      exact ⟨type, fun isArgument => type (isArgument.isType rfl)⟩
  | array component ih =>
      have type : IsType (.array component) →
          Symbol.tokens (print (.array component)) = symbols (.array component) := by
        rintro (_ | _ | isType)
        rw [print, tokens_append_of_mark (b := '[') (by simp) (by decide), ih.1 isType,
          show Symbol.tokens "[]" = [.mark '[', .mark ']'] by decide +kernel, symbols]
      exact ⟨type, fun isArgument => type (isArgument.isType rfl)⟩
  | wildcard upper lower upperIh lowerIh =>
      refine ⟨(nomatch ·), ?_⟩
      rintro (isType | _ | isType | isType)
      · cases isType
      · decide +kernel
      · rename_i bound
        rw [print, tokens_mark_append (a := ' ') (by simp) (by decide), (upperIh bound rfl).1 isType,
          show Symbol.tokens "? extends " = [.mark '?', .word "extends"] by decide +kernel, symbols]
        rfl
      · rename_i bound
        rw [print, tokens_mark_append (a := ' ') (by simp) (by decide), (lowerIh bound rfl).1 isType,
          show Symbol.tokens "? super " = [.mark '?', .word "super"] by decide +kernel, symbols]
        rfl

/-- The written form of a type consists of its symbols. -/
theorem tokens_print {t : TypeExpr} (isType : t.IsType) : Symbol.tokens t.print = t.symbols :=
  (tokens_print_of_grammar t).1 isType

end BridgeMethods.TypeExpr
