import BridgeMethods.Proofs.Result
import BridgeMethods.Proofs.TypeExpr.Reader

/-!
# Reading accepts exactly the grammar

A text is read as an expression if and only if the expression is well formed and has the tokens of
the text.  One direction is an invariant of the reader: what it holds is well formed within the
limits, and it has been written with just the symbols passed.  The other one follows an expression
and runs the reader over its symbols.
-/

namespace BridgeMethods.TypeExpr

open Text

/-! ## What the reader holds -/

/-- The symbols that stand in front of the type of an argument. -/
def Bounding.symbols : Bounding → List Symbol
  | .exactly => []
  | .extending => [.mark '?', .word "extends"]
  | .super => [.mark '?', .word "super"]

/-- The symbols of an open list up to the type of its current argument. -/
def OpenList.symbols (list : OpenList) : List Symbol :=
  .word list.head :: .mark '<' ::
    (list.arguments.reverse.flatMap (fun t => t.symbols ++ [.mark ',']) ++ list.bounding.symbols)

/-- The symbols of the open lists, the innermost of which comes first. -/
def pendingSymbols : List OpenList → List Symbol
  | [] => []
  | list :: outer => pendingSymbols outer ++ list.symbols

/-- The symbols of the current argument, or of the whole type if no list is open. -/
def Phase.symbols : Phase → List Symbol
  | .type => []
  | .argument => []
  | .question => [.mark '?']
  | .name text => [.word text]
  | .done t => t.symbols
  | .bracket component => component.symbols ++ [.mark '[']

/-- The symbols that the reader has passed. -/
def Reader.symbols (reader : Reader) : List Symbol :=
  pendingSymbols reader.pending ++ reader.phase.symbols

/-- The number of array dimensions in the arguments of the open lists. -/
def pendingDimensions : List OpenList → Nat
  | [] => 0
  | list :: outer => pendingDimensions outer + dimensionsList list.arguments

/-- The number of array dimensions that a phase has seen. -/
def Phase.dimensions : Phase → Nat
  | .done t => t.dimensions
  | .bracket component => component.dimensions + 1
  | _ => 0

/-- The open lists can become generic types within the limit of nesting. -/
def PendingFits : List OpenList → Prop
  | [] => True
  | list :: outer =>
      IsName list.head ∧
        (∀ t ∈ list.arguments, t.IsArgument ∧ t.depth + (outer.length + 1) ≤ maxNesting) ∧
        outer.length < maxNesting ∧ PendingFits outer

/-- A phase can be reached with the given open lists. -/
def Phase.Fits (pending : List OpenList) : Phase → Prop
  | .type => pending.length < maxNesting
  | .argument | .question => ∃ list outer, pending = list :: outer ∧ list.bounding = .exactly
  | .name text => IsName text ∧ pending.length < maxNesting
  | .done t | .bracket t => t.IsType ∧ t.depth + pending.length ≤ maxNesting

/-- The invariant of the reader. -/
structure Reader.Valid (reader : Reader) : Prop where
  phase : reader.phase.Fits reader.pending
  pending : PendingFits reader.pending
  dimensions_eq :
    reader.dimensions = pendingDimensions reader.pending + reader.phase.dimensions
  dimensions_le : reader.dimensions ≤ maxDimensions

namespace Bounding

variable (bounding : Bounding) {t : TypeExpr}

theorem symbols_apply : (bounding.apply t).symbols = bounding.symbols ++ t.symbols := by
  cases bounding <;> rfl

theorem dimensions_apply : (bounding.apply t).dimensions = t.dimensions := by
  cases bounding <;> simp [apply, TypeExpr.dimensions, dimensionsOption]

theorem depth_apply : (bounding.apply t).depth = t.depth := by
  cases bounding <;> simp [apply, depth, depthOption]

theorem isArgument_apply (isType : t.IsType) : (bounding.apply t).IsArgument := by
  cases bounding with
  | exactly => exact .type isType
  | extending => exact .extending isType
  | super => exact .super isType

end Bounding

theorem symbolsList_append_singleton (ts : List TypeExpr) (t : TypeExpr) :
    symbolsList (ts ++ [t]) = ts.flatMap (fun u => u.symbols ++ [.mark ',']) ++ t.symbols := by
  induction ts with
  | nil => rfl
  | cons u ts ih =>
      have unfolded : symbolsList (u :: ts ++ [t]) =
          u.symbols ++ .mark ',' :: symbolsList (ts ++ [t]) := by
        cases ts <;> rfl
      rw [unfolded, ih, List.flatMap_cons, List.append_assoc, List.append_assoc,
        List.singleton_append]

/-! ## Reading keeps the invariant -/

namespace Reader

/-- An expression can be the current argument of the innermost open list. -/
structure Completes (phase : Phase) (list : OpenList) (outer : List OpenList)
    (t : TypeExpr) : Prop where
  isArgument : t.IsArgument
  depth_le : t.depth + (outer.length + 1) ≤ maxNesting
  symbols_eq : t.symbols = list.bounding.symbols ++ phase.symbols
  dimensions_eq : t.dimensions = phase.dimensions

variable {phase : Phase} {list : OpenList} {outer pending : List OpenList} {t : TypeExpr} {n : Nat}

theorem Valid.isType_of_whole (valid : Valid ⟨phase, pending, n⟩)
    (whole : phase.whole? = some t) :
    t.IsType ∧ t.depth + pending.length ≤ maxNesting ∧ phase.symbols = t.symbols ∧
      phase.dimensions = t.dimensions := by
  have fits := valid.phase
  cases phase with
  | name text =>
      cases whole
      exact ⟨.named fits.1, by rw [depth, Nat.add_comm]; exact fits.2, rfl, rfl⟩
  | done t =>
      cases whole
      exact ⟨fits.1, fits.2, rfl, rfl⟩
  | type | argument | question | bracket component => contradiction

theorem Valid.completes_of_whole (valid : Valid ⟨phase, list :: outer, n⟩)
    (whole : phase.whole? = some t) : Completes phase list outer (list.bounding.apply t) := by
  rcases valid.isType_of_whole whole with ⟨isType, depth_le, symbols_eq, dimensions_eq⟩
  exact {
    isArgument := list.bounding.isArgument_apply isType
    depth_le := by rwa [Bounding.depth_apply]
    symbols_eq := by rw [Bounding.symbols_apply, symbols_eq]
    dimensions_eq := by rw [Bounding.dimensions_apply, dimensions_eq] }

theorem Valid.completes_unbounded (valid : Valid ⟨.question, list :: outer, n⟩) :
    Completes .question list outer (.wildcard none none) := by
  rcases valid.phase with ⟨first, rest, pending_eq, exactly⟩
  cases pending_eq
  exact {
    isArgument := .unbounded
    depth_le := by
      have room := valid.pending.2.2.1
      simp only [depth, depthOption]
      omega
    symbols_eq := by rw [exactly]; rfl
    dimensions_eq := rfl }

theorem Completes.valid_takeArgument (completes : Completes phase list outer t)
    (valid : Valid ⟨phase, list :: outer, n⟩) :
    (takeArgument ⟨phase, list :: outer, n⟩ list outer t).Valid := by
  rcases valid.pending with ⟨isName, fits, room, outerFits⟩
  exact {
    phase := ⟨_, _, rfl, rfl⟩
    pending :=
      ⟨isName, List.forall_mem_cons.mpr ⟨⟨completes.isArgument, completes.depth_le⟩, fits⟩,
        room, outerFits⟩
    dimensions_eq := by
      have counted := valid.dimensions_eq
      have own := completes.dimensions_eq
      simp only [pendingDimensions] at counted
      simp only [takeArgument, pendingDimensions, dimensionsList, Phase.dimensions]
      omega
    dimensions_le := valid.dimensions_le }

theorem Completes.symbols_takeArgument (completes : Completes phase list outer t) :
    (takeArgument ⟨phase, list :: outer, n⟩ list outer t).symbols =
      symbols ⟨phase, list :: outer, n⟩ ++ [.mark ','] := by
  simp [symbols, takeArgument, pendingSymbols, OpenList.symbols, Phase.symbols, Bounding.symbols,
    completes.symbols_eq]

theorem Completes.valid_closeList (completes : Completes phase list outer t)
    (valid : Valid ⟨phase, list :: outer, n⟩) :
    (closeList ⟨phase, list :: outer, n⟩ list outer t).Valid := by
  rcases valid.pending with ⟨isName, fits, room, outerFits⟩
  have allFit : ∀ u ∈ (t :: list.arguments).reverse,
      u.IsArgument ∧ u.depth + (outer.length + 1) ≤ maxNesting := by
    intro u member
    rcases List.mem_cons.mp (List.mem_reverse.mp member) with rfl | member
    · exact ⟨completes.isArgument, completes.depth_le⟩
    · exact fits u member
  exact {
    phase := by
      refine ⟨.generic isName (by simp) fun u member => (allFit u member).1, ?_⟩
      have deepest : depthList (t :: list.arguments).reverse ≤ maxNesting - (outer.length + 1) :=
        depthList_le_iff.mpr fun u member => Nat.le_sub_of_add_le (allFit u member).2
      simp only [closeList, depth]
      omega
    pending := outerFits
    dimensions_eq := by
      have counted := valid.dimensions_eq
      have own := completes.dimensions_eq
      simp only [pendingDimensions] at counted
      simp only [closeList, Phase.dimensions, TypeExpr.dimensions, dimensionsList_reverse,
        dimensionsList]
      omega
    dimensions_le := valid.dimensions_le }

theorem Completes.symbols_closeList (completes : Completes phase list outer t) :
    (closeList ⟨phase, list :: outer, n⟩ list outer t).symbols =
      symbols ⟨phase, list :: outer, n⟩ ++ [.mark '>'] := by
  simp [symbols, closeList, pendingSymbols, OpenList.symbols, Phase.symbols, TypeExpr.symbols,
    symbolsList_append_singleton, completes.symbols_eq]

variable {reader reader' : Reader} {symbol : Symbol}

theorem Step.valid (goes : Step reader symbol reader') (lexical : symbol.IsLexical)
    (valid : reader.Valid) : reader'.Valid := by
  cases goes with
  | typeName =>
      exact {
        phase := ⟨lexical, valid.phase⟩
        pending := valid.pending
        dimensions_eq := valid.dimensions_eq
        dimensions_le := valid.dimensions_le }
  | argumentName shallow =>
      exact {
        phase := ⟨lexical, shallow⟩
        pending := valid.pending
        dimensions_eq := valid.dimensions_eq
        dimensions_le := valid.dimensions_le }
  | question =>
      exact {
        phase := valid.phase
        pending := valid.pending
        dimensions_eq := valid.dimensions_eq
        dimensions_le := valid.dimensions_le }
  | extending shallow =>
      exact {
        phase := shallow
        pending := valid.pending
        dimensions_eq := valid.dimensions_eq
        dimensions_le := valid.dimensions_le }
  | super shallow =>
      exact {
        phase := shallow
        pending := valid.pending
        dimensions_eq := valid.dimensions_eq
        dimensions_le := valid.dimensions_le }
  | nextUnbounded => exact valid.completes_unbounded.valid_takeArgument valid
  | lastUnbounded => exact valid.completes_unbounded.valid_closeList valid
  | openList =>
      exact {
        phase := ⟨_, _, rfl, rfl⟩
        pending := ⟨valid.phase.1, by simp, valid.phase.2, valid.pending⟩
        dimensions_eq := by
          simpa [pendingDimensions, dimensionsList, Phase.dimensions] using valid.dimensions_eq
        dimensions_le := valid.dimensions_le }
  | openBracket whole notFull =>
      rcases valid.isType_of_whole whole with ⟨isType, depth_le, _, dimensions_eq⟩
      exact {
        phase := ⟨isType, depth_le⟩
        pending := valid.pending
        dimensions_eq := by
          have counted := valid.dimensions_eq
          simp only [dimensions_eq] at counted
          simp only [Phase.dimensions]
          omega
        dimensions_le := by
          have small := valid.dimensions_le
          simp only at small ⊢
          omega }
  | closeBracket =>
      exact {
        phase := ⟨.array valid.phase.1, valid.phase.2⟩
        pending := valid.pending
        dimensions_eq := valid.dimensions_eq
        dimensions_le := valid.dimensions_le }
  | next whole => exact (valid.completes_of_whole whole).valid_takeArgument valid
  | last whole => exact (valid.completes_of_whole whole).valid_closeList valid

theorem Step.symbols_eq (goes : Step reader symbol reader') (valid : reader.Valid) :
    reader'.symbols = reader.symbols ++ [symbol] := by
  cases goes with
  | typeName => simp [symbols, Phase.symbols]
  | argumentName _ => simp [symbols, Phase.symbols]
  | question => simp [symbols, Phase.symbols]
  | extending _ =>
      rcases valid.phase with ⟨first, rest, pending_eq, exactly⟩
      cases pending_eq
      simp [symbols, pendingSymbols, OpenList.symbols, Phase.symbols, Bounding.symbols, exactly]
  | super _ =>
      rcases valid.phase with ⟨first, rest, pending_eq, exactly⟩
      cases pending_eq
      simp [symbols, pendingSymbols, OpenList.symbols, Phase.symbols, Bounding.symbols, exactly]
  | nextUnbounded => exact valid.completes_unbounded.symbols_takeArgument
  | lastUnbounded => exact valid.completes_unbounded.symbols_closeList
  | openList =>
      simp [symbols, pendingSymbols, OpenList.symbols, Phase.symbols, Bounding.symbols]
  | @openBracket phase t pending _ whole _ =>
      have phase_eq := (valid.isType_of_whole whole).2.2.1
      calc
        pendingSymbols pending ++ (t.symbols ++ [.mark '[']) =
            pendingSymbols pending ++ t.symbols ++ [.mark '['] :=
          (List.append_assoc _ _ _).symm
        _ = pendingSymbols pending ++ phase.symbols ++ [.mark '['] := by rw [phase_eq]
  | closeBracket => simp [symbols, Phase.symbols, TypeExpr.symbols]
  | next whole => exact (valid.completes_of_whole whole).symbols_takeArgument
  | last whole => exact (valid.completes_of_whole whole).symbols_closeList

/-- A run keeps the invariant, and it passes the symbols of its lexemes. -/
theorem Valid.of_foldlM {lexemes : List Lexeme} (valid : reader.Valid)
    (lexical : ∀ lexeme ∈ lexemes, lexeme.symbol.IsLexical)
    (run : lexemes.foldlM step reader = .ok reader') :
    reader'.Valid ∧ reader'.symbols = reader.symbols ++ lexemes.map (·.symbol) := by
  induction lexemes generalizing reader with
  | nil =>
      cases run
      exact ⟨valid, (List.append_nil _).symm⟩
  | cons lexeme rest ih =>
      rcases Except.bind_eq_ok_iff.mp run with ⟨middle, first, restRun⟩
      have goes := step_eq_ok_iff.mp first
      obtain ⟨validEnd, symbols_end⟩ :=
        ih (goes.valid (lexical lexeme List.mem_cons_self) valid)
          (fun other member => lexical other (List.mem_cons_of_mem lexeme member)) restRun
      refine ⟨validEnd, ?_⟩
      rw [symbols_end, goes.symbols_eq valid, List.append_assoc, List.map_cons,
        List.singleton_append]

theorem valid_start : start.Valid where
  phase := Nat.zero_lt_succ 63
  pending := trivial
  dimensions_eq := rfl
  dimensions_le := Nat.zero_le _

/-- A reader that may stop has read a well formed expression. -/
theorem Valid.wellFormed_of_finish {offset : Nat} (valid : reader.Valid)
    (finished : reader.finish offset = .ok t) : t.WellFormed ∧ reader.symbols = t.symbols := by
  rcases reader with ⟨phase, pending, n⟩
  have whole : phase.whole? = some t ∧ pending = [] := by
    cases phase with
    | type | question | bracket component => contradiction
    | argument =>
        simp only [finish] at finished
        split_ifs at finished
    | name text | done t =>
        simp only [finish, List.isEmpty_iff] at finished
        split_ifs at finished with closed
        cases finished
        exact ⟨rfl, closed⟩
  rcases whole with ⟨whole, rfl⟩
  rcases valid.isType_of_whole whole with ⟨isType, depth_le, symbols_eq, dimensions_eq⟩
  have counted := valid.dimensions_eq
  have small := valid.dimensions_le
  simp only [pendingDimensions, dimensions_eq, Nat.zero_add] at counted
  refine ⟨⟨isType, depth_le, ?_⟩, symbols_eq⟩
  rw [← counted]
  exact small

/-! ## The symbols of a well formed expression are read -/

/-- The phase after the last symbol of a type. -/
def afterType : TypeExpr → Phase
  | .named name => .name name
  | t => .done t

theorem whole?_afterType (t : TypeExpr) : (afterType t).whole? = some t := by
  cases t <;> rfl

/-- A type is read wherever a type may stand, as far as the limits allow. -/
def ReadsType (t : TypeExpr) : Prop :=
  ∀ phase pending n, phase = .type ∨ phase = .argument →
    t.depth + pending.length ≤ maxNesting → n + t.dimensions ≤ maxDimensions →
    Reads ⟨phase, pending, n⟩ t.symbols ⟨afterType t, pending, n + t.dimensions⟩

/-- An argument is read up to the comma that follows it, or up to the end of its list. -/
def ReadsArgument (t : TypeExpr) : Prop :=
  ∀ head arguments outer n,
    t.depth + (outer.length + 1) ≤ maxNesting → n + t.dimensions ≤ maxDimensions →
    Reads ⟨.argument, ⟨head, arguments, .exactly⟩ :: outer, n⟩ (t.symbols ++ [.mark ','])
        ⟨.argument, ⟨head, t :: arguments, .exactly⟩ :: outer, n + t.dimensions⟩ ∧
      Reads ⟨.argument, ⟨head, arguments, .exactly⟩ :: outer, n⟩ (t.symbols ++ [.mark '>'])
        ⟨.done (.generic head (t :: arguments).reverse), outer, n + t.dimensions⟩

theorem step_word {text : String} (start : phase = .type ∨ phase = .argument)
    (shallow : pending.length < maxNesting) :
    Step ⟨phase, pending, n⟩ (.word text) ⟨.name text, pending, n⟩ := by
  rcases start with rfl | rfl
  · exact .typeName
  · exact .argumentName shallow

theorem ReadsType.readsArgument (reads : ReadsType t) : ReadsArgument t := by
  intro head arguments outer n shallow few
  have typeRead := reads .argument (⟨head, arguments, .exactly⟩ :: outer) n (.inr rfl) shallow few
  exact ⟨typeRead.append (Step.next (whole?_afterType t)).reads,
    typeRead.append (Step.last (whole?_afterType t)).reads⟩

theorem readsArgument_unbounded : ReadsArgument (.wildcard none none) := by
  intro head arguments outer n _ _
  exact ⟨.cons .question Step.nextUnbounded.reads, .cons .question Step.lastUnbounded.reads⟩

theorem ReadsType.readsArgument_extending {bound : TypeExpr} (isType : bound.IsType)
    (reads : ReadsType bound) : ReadsArgument (.wildcard (some bound) none) := by
  intro head arguments outer n shallow few
  simp only [depth, depthOption, TypeExpr.dimensions, dimensionsOption, Nat.max_zero,
    Nat.add_zero] at shallow few ⊢
  have positive := isType.one_le_depth
  have boundRead := reads .type (⟨head, arguments, .extending⟩ :: outer) n (.inl rfl) shallow few
  have keyword : Reads ⟨.argument, ⟨head, arguments, .exactly⟩ :: outer, n⟩
      (TypeExpr.symbols (.wildcard (some bound) none))
      ⟨afterType bound, ⟨head, arguments, .extending⟩ :: outer, n + bound.dimensions⟩ :=
    .cons .question (.cons (.extending (by simp only [List.length_cons]; omega)) boundRead)
  exact ⟨keyword.append (Step.next (whole?_afterType bound)).reads,
    keyword.append (Step.last (whole?_afterType bound)).reads⟩

theorem ReadsType.readsArgument_super {bound : TypeExpr} (isType : bound.IsType)
    (reads : ReadsType bound) : ReadsArgument (.wildcard none (some bound)) := by
  intro head arguments outer n shallow few
  simp only [depth, depthOption, TypeExpr.dimensions, dimensionsOption, Nat.zero_max,
    Nat.zero_add] at shallow few ⊢
  have positive := isType.one_le_depth
  have boundRead := reads .type (⟨head, arguments, .super⟩ :: outer) n (.inl rfl) shallow few
  have keyword : Reads ⟨.argument, ⟨head, arguments, .exactly⟩ :: outer, n⟩
      (TypeExpr.symbols (.wildcard none (some bound)))
      ⟨afterType bound, ⟨head, arguments, .super⟩ :: outer, n + bound.dimensions⟩ :=
    .cons .question (.cons (.super (by simp only [List.length_cons]; omega)) boundRead)
  exact ⟨keyword.append (Step.next (whole?_afterType bound)).reads,
    keyword.append (Step.last (whole?_afterType bound)).reads⟩

theorem reads_arguments {ts : List TypeExpr} (nonempty : ts ≠ [])
    (each : ∀ t ∈ ts, ReadsArgument t) (head : String) (arguments : List TypeExpr)
    (outer : List OpenList) (n : Nat)
    (shallow : ∀ t ∈ ts, t.depth + (outer.length + 1) ≤ maxNesting)
    (few : n + dimensionsList ts ≤ maxDimensions) :
    Reads ⟨.argument, ⟨head, arguments, .exactly⟩ :: outer, n⟩ (symbolsList ts ++ [.mark '>'])
      ⟨.done (.generic head (arguments.reverse ++ ts)), outer, n + dimensionsList ts⟩ := by
  induction ts generalizing arguments n with
  | nil => contradiction
  | cons t ts ih =>
      rw [dimensionsList] at few
      have first := each t List.mem_cons_self head arguments outer n
        (shallow t List.mem_cons_self) (by omega)
      cases ts with
      | nil =>
          have last := first.2
          rw [List.reverse_cons] at last
          simpa [symbolsList, dimensionsList] using last
      | cons u ts =>
          have rest := ih (List.cons_ne_nil u ts)
            (fun v member => each v (List.mem_cons_of_mem t member)) (t :: arguments)
            (n + t.dimensions) (fun v member => shallow v (List.mem_cons_of_mem t member))
            (by omega)
          have both := first.1.append rest
          rw [List.reverse_cons, List.append_assoc, List.append_assoc, List.singleton_append,
            Nat.add_assoc] at both
          simpa [symbolsList, dimensionsList] using both

theorem reads_of_grammar (t : TypeExpr) :
    (t.IsType → ReadsType t) ∧ (t.IsArgument → ReadsArgument t) := by
  induction t with
  | named name =>
      have type : IsType (.named name) → ReadsType (.named name) := by
        intro _ phase pending n start shallow _
        rw [depth] at shallow
        exact (step_word start (by omega)).reads
      exact ⟨type, fun isArgument => (type (isArgument.isType rfl)).readsArgument⟩
  | typeVar name =>
      exact ⟨(nomatch ·), fun isArgument => nomatch isArgument.isType rfl⟩
  | generic head arguments ih =>
      have type : IsType (.generic head arguments) → ReadsType (.generic head arguments) := by
        rintro (_ | ⟨_, nonempty, areArguments⟩) phase pending n start shallow few
        rw [depth] at shallow
        have each : ∀ t ∈ arguments, ReadsArgument t := fun t member =>
          (ih t member).2 (areArguments t member)
        have eachShallow : ∀ t ∈ arguments, t.depth + (pending.length + 1) ≤ maxNesting := by
          intro t member
          have deepest := depthList_le_iff.mp (Nat.le_refl (depthList arguments)) t member
          omega
        exact .cons (step_word start (by omega))
          (.cons .openList (reads_arguments nonempty each head [] pending n eachShallow few))
      exact ⟨type, fun isArgument => (type (isArgument.isType rfl)).readsArgument⟩
  | array component ih =>
      have type : IsType (.array component) → ReadsType (.array component) := by
        rintro (_ | _ | isType) phase pending n start shallow few
        rw [TypeExpr.dimensions] at few
        have inner := ih.1 isType phase pending n start shallow (by omega)
        exact inner.append
          (.cons (.openBracket (whole?_afterType component) (by omega)) Step.closeBracket.reads)
      exact ⟨type, fun isArgument => (type (isArgument.isType rfl)).readsArgument⟩
  | wildcard upper lower upperIh lowerIh =>
      refine ⟨(nomatch ·), ?_⟩
      rintro (isType | _ | isType | isType)
      · cases isType
      · exact readsArgument_unbounded
      · exact ((upperIh _ rfl).1 isType).readsArgument_extending isType
      · exact ((lowerIh _ rfl).1 isType).readsArgument_super isType

theorem finish_of_whole (whole : phase.whole? = some t) (offset : Nat) :
    finish ⟨phase, [], n⟩ offset = .ok t := by
  cases phase <;> cases whole <;> rfl

end Reader

/-! ## The reader and the grammar -/

/-- A text is read as an expression exactly if the expression is well formed and the symbols of
the text are those of the expression. -/
theorem parse_eq_ok_iff_symbols {signature : String} {t : TypeExpr} :
    parse signature = .ok t ↔ t.WellFormed ∧ Symbol.tokens signature = t.symbols := by
  rw [← Lexeme.symbols_eq_tokens]
  constructor
  · intro parsed
    rcases Except.bind_eq_ok_iff.mp parsed with ⟨reader, run, finished⟩
    obtain ⟨valid, passed⟩ := Reader.valid_start.of_foldlM
      (fun _ member => Lexeme.isLexical_of_mem_scan member) run
    rcases valid.wellFormed_of_finish finished with ⟨wellFormed, symbols_eq⟩
    exact ⟨wellFormed, by rw [← symbols_eq, passed]; rfl⟩
  · rintro ⟨wellFormed, symbols_eq⟩
    have reads := (Reader.reads_of_grammar t).1 wellFormed.isType .type [] 0 (.inl rfl)
      wellFormed.depth_le (by rw [Nat.zero_add]; exact wellFormed.dimensions_le)
    exact Except.bind_eq_ok_iff.mpr
      ⟨_, reads (Lexeme.scan signature) symbols_eq, Reader.finish_of_whole (Reader.whole?_afterType t) _⟩

theorem wellFormed_of_parse {signature : String} {t : TypeExpr}
    (parsed : parse signature = .ok t) : t.WellFormed :=
  (parse_eq_ok_iff_symbols.mp parsed).1

theorem parse_print {t : TypeExpr} (wellFormed : t.WellFormed) : parse t.print = .ok t :=
  parse_eq_ok_iff_symbols.mpr ⟨wellFormed, tokens_print wellFormed.isType⟩

/-- Reading inverts writing.  A text is read as an expression exactly if the expression is well
formed and its written form has the same tokens; so what has been read is read again from its
written form, and white space that splits no word changes nothing. -/
theorem parse_inverts_print :
    (∀ (signature : String) (t : TypeExpr),
      parse signature = .ok t ↔
        t.WellFormed ∧ Symbol.tokens signature = Symbol.tokens t.print) ∧
    (∀ (signature : String) (t : TypeExpr),
      parse signature = .ok t → parse t.print = .ok t) ∧
    (∀ (left blank right : String) (t : TypeExpr), (∀ c ∈ blank.toList, isSpace c) →
      Symbol.Apart left.toList right.toList →
        (parse (left ++ (blank ++ right)) = .ok t ↔ parse (left ++ right) = .ok t)) := by
  refine ⟨fun signature t => ?_, fun signature t parsed => ?_,
    fun left blank right t spaces apart => ?_⟩
  · rw [parse_eq_ok_iff_symbols]
    exact and_congr_right fun wellFormed => by rw [tokens_print wellFormed.isType]
  · exact parse_print (wellFormed_of_parse parsed)
  · have tokens_eq : Symbol.tokens (left ++ (blank ++ right)) = Symbol.tokens (left ++ right) := by
      simp only [Symbol.tokens, String.toList_append]
      exact Symbol.ofChars_append_blank spaces apart
    rw [parse_eq_ok_iff_symbols, parse_eq_ok_iff_symbols, tokens_eq]

theorem parse_inverts_print_map :
    parse "Map<?,? super T [ ]>" =
        .ok (.generic "Map" [.wildcard none none, .wildcard none (some (.array (.named "T")))]) ∧
      parse "Map<?, ? super T[]>" =
        .ok (.generic "Map" [.wildcard none none, .wildcard none (some (.array (.named "T")))]) ∧
      (parse "Map<? \n>" = .ok (.generic "Map" [.wildcard none none]) ↔
        parse "Map<?>" = .ok (.generic "Map" [.wildcard none none])) :=
  ⟨rfl, parse_inverts_print.2.1 "Map<?,? super T [ ]>" _ rfl,
    parse_inverts_print.2.2 "Map<?" " \n" ">" _ (List.all_eq_true.mp rfl) (by decide)⟩

end BridgeMethods.TypeExpr
