import BridgeMethods.Proofs.TypeExpr.Grammar

/-!
# Transitions of the reader of type expressions

The reader goes on or stops with an error at each lexeme.  `Reader.Step` lists the ways in which it
can go on, and `Reader.step_eq_ok_iff` says that there are no others.  A step depends on the symbol
of a lexeme only; offsets matter for errors alone.

A run of the reader over the symbols of a list is `Reader.Reads`.  It is put together from runs over
the parts of the list.
-/

namespace BridgeMethods.TypeExpr

/-- The type that stands whole before a phase, if there is one. -/
def Phase.whole? : Phase → Option TypeExpr
  | .name text => some (.named text)
  | .done t => some t
  | _ => none

namespace Reader

/-- The reader goes on at a symbol. -/
inductive Step : Reader → Symbol → Reader → Prop
  | typeName {text pending n} :
      Step ⟨.type, pending, n⟩ (.word text) ⟨.name text, pending, n⟩
  | argumentName {text pending n} : pending.length < maxNesting →
      Step ⟨.argument, pending, n⟩ (.word text) ⟨.name text, pending, n⟩
  | question {pending n} :
      Step ⟨.argument, pending, n⟩ (.mark '?') ⟨.question, pending, n⟩
  | extending {list outer n} : (list :: outer).length < maxNesting →
      Step ⟨.question, list :: outer, n⟩ (.word "extends")
        ⟨.type, { list with bounding := .extending } :: outer, n⟩
  | super {list outer n} : (list :: outer).length < maxNesting →
      Step ⟨.question, list :: outer, n⟩ (.word "super")
        ⟨.type, { list with bounding := .super } :: outer, n⟩
  | nextUnbounded {list outer n} :
      Step ⟨.question, list :: outer, n⟩ (.mark ',')
        (takeArgument ⟨.question, list :: outer, n⟩ list outer (.wildcard none none))
  | lastUnbounded {list outer n} :
      Step ⟨.question, list :: outer, n⟩ (.mark '>')
        (closeList ⟨.question, list :: outer, n⟩ list outer (.wildcard none none))
  | openList {head pending n} :
      Step ⟨.name head, pending, n⟩ (.mark '<')
        ⟨.argument, ⟨head, [], .exactly⟩ :: pending, n⟩
  | openBracket {phase t pending n} : phase.whole? = some t → n ≠ maxDimensions →
      Step ⟨phase, pending, n⟩ (.mark '[') ⟨.bracket t, pending, n + 1⟩
  | closeBracket {t pending n} :
      Step ⟨.bracket t, pending, n⟩ (.mark ']') ⟨.done (.array t), pending, n⟩
  | next {phase t list outer n} : phase.whole? = some t →
      Step ⟨phase, list :: outer, n⟩ (.mark ',')
        (takeArgument ⟨phase, list :: outer, n⟩ list outer (list.bounding.apply t))
  | last {phase t list outer n} : phase.whole? = some t →
      Step ⟨phase, list :: outer, n⟩ (.mark '>')
        (closeList ⟨phase, list :: outer, n⟩ list outer (list.bounding.apply t))

variable {reader reader' reader'' : Reader} {lexeme : Lexeme}

theorem Step.of_stepDone {t : TypeExpr} (whole : reader.phase.whole? = some t)
    (goes : reader.stepDone t lexeme = .ok reader') : Step reader lexeme.symbol reader' := by
  rcases reader with ⟨phase, pending, n⟩
  rcases lexeme with ⟨symbol, start, stop⟩
  simp only [stepDone] at goes
  split at goes
  · split_ifs at goes with full
    cases goes
    exact .openBracket whole full
  · cases goes
    exact .next whole
  · cases goes
    exact .last whole
  · contradiction
  · contradiction

theorem Step.of_stepQuestion (question : reader.phase = .question)
    (goes : reader.stepQuestion lexeme = .ok reader') : Step reader lexeme.symbol reader' := by
  rcases reader with ⟨phase, pending, n⟩
  rcases lexeme with ⟨symbol, start, stop⟩
  obtain rfl : phase = .question := question
  simp only [stepQuestion] at goes
  split at goes
  · cases goes
    exact .nextUnbounded
  · cases goes
    exact .lastUnbounded
  · split_ifs at goes with extending deep super deep
    · cases goes
      subst extending
      exact .extending (Nat.lt_of_not_le deep)
    · cases goes
      subst super
      exact .super (Nat.lt_of_not_le deep)
  · contradiction

theorem Step.of_step (goes : reader.step lexeme = .ok reader') :
    Step reader lexeme.symbol reader' := by
  rcases reader with ⟨phase, pending, n⟩
  rcases lexeme with ⟨symbol, start, stop⟩
  cases phase with
  | type =>
      cases symbol with
      | word text =>
          cases goes
          exact .typeName
      | mark c => contradiction
  | argument =>
      by_cases question : symbol = .mark '?'
      · subst question
        cases goes
        exact .question
      · simp only [step] at goes
        split_ifs at goes with deep
        cases symbol with
        | word text =>
            cases goes
            exact .argumentName (Nat.lt_of_not_le deep)
        | mark c => contradiction
  | question => exact .of_stepQuestion rfl goes
  | name text =>
      by_cases opening : symbol = .mark '<'
      · subst opening
        cases goes
        exact .openList
      · simp only [step] at goes
        exact .of_stepDone rfl goes
  | done t => exact .of_stepDone rfl goes
  | bracket component =>
      by_cases closing : symbol = .mark ']'
      · subst closing
        cases goes
        exact .closeBracket
      · simp only [step] at goes
        contradiction

theorem Step.step_eq_ok {symbol : Symbol} (goes : Step reader symbol reader')
    (symbol_eq : lexeme.symbol = symbol) : reader.step lexeme = .ok reader' := by
  rcases lexeme with ⟨symbol', start, stop⟩
  obtain rfl : symbol' = symbol := symbol_eq
  cases goes with
  | typeName => rfl
  | argumentName shallow => simp [step, Nat.not_le_of_lt shallow]
  | question => rfl
  | extending shallow => simpa [step, stepQuestion] using shallow
  | super shallow => simpa [step, stepQuestion] using shallow
  | nextUnbounded => rfl
  | lastUnbounded => rfl
  | openList => rfl
  | @openBracket phase t _ _ whole notFull =>
      cases phase <;> cases whole <;> simp [step, stepDone, notFull]
  | closeBracket => rfl
  | @next phase t _ _ _ whole => cases phase <;> cases whole <;> rfl
  | @last phase t _ _ _ whole => cases phase <;> cases whole <;> rfl

/-- The ways in which the reader goes on are exactly those of `Reader.Step`. -/
theorem step_eq_ok_iff : reader.step lexeme = .ok reader' ↔ Step reader lexeme.symbol reader' :=
  ⟨.of_step, fun goes => goes.step_eq_ok rfl⟩

/-! ## Runs -/

/-- The reader goes from one state to another over any lexemes with the given symbols. -/
def Reads (reader : Reader) (symbols : List Symbol) (reader' : Reader) : Prop :=
  ∀ lexemes : List Lexeme, lexemes.map (·.symbol) = symbols →
    lexemes.foldlM step reader = .ok reader'

theorem Step.reads {symbol : Symbol} (goes : Step reader symbol reader') :
    Reads reader [symbol] reader' := by
  intro lexemes symbols_eq
  rcases List.map_eq_singleton_iff.mp symbols_eq with ⟨lexeme, rfl, symbol_eq⟩
  rw [List.foldlM_cons, goes.step_eq_ok symbol_eq]
  rfl

theorem Reads.append {first second : List Symbol} (readsFirst : Reads reader first reader')
    (readsSecond : Reads reader' second reader'') : Reads reader (first ++ second) reader'' := by
  intro lexemes symbols_eq
  rcases List.map_eq_append_iff.mp symbols_eq with ⟨front, back, rfl, frontSymbols, backSymbols⟩
  rw [List.foldlM_append, readsFirst front frontSymbols]
  exact readsSecond back backSymbols

theorem Reads.cons {symbol : Symbol} {rest : List Symbol} (goes : Step reader symbol reader')
    (readsRest : Reads reader' rest reader'') : Reads reader (symbol :: rest) reader'' :=
  goes.reads.append readsRest

end Reader

end BridgeMethods.TypeExpr
