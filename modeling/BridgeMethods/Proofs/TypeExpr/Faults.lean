import BridgeMethods.Pool.Validation
import BridgeMethods.Proofs.TypeExpr.Parsing
import BridgeMethods.Proofs.TypeExpr.Places

/-!
# Places of faults in type expressions

An error about a text names the place at which the text ceases to be the beginning of a type
expression.  No decision looks past that place, so the error is the same for every text that goes on
differently behind it; and what stands in front of it can be completed, unless the fault is in the
word in front of the place or in the depth of nesting.

`Reader.Stops` lists the ways in which the reader fails, as `Reader.Step` lists the ways in which it
goes on.  A valid reader that stops in front of something can read something else instead.
-/

namespace BridgeMethods.TypeExpr

/-- The faults of a text that could have gone on with something else at the place of the fault. -/
def Fault.replaceable : List Fault :=
  [.expectedName, .expectedMark ']', .expectedMark '>', .trailingInput, .tooManyDimensions]

namespace Reader

/-- The reader fails in front of what comes next, which is a symbol or the end of the text. -/
inductive Stops : Reader → Option Symbol → Fault → Prop
  | typeName {pending n next} : (∀ text, next ≠ some (.word text)) →
      Stops ⟨.type, pending, n⟩ next .expectedName
  | argumentName {pending n next} : pending.length < maxNesting → next ≠ some (.mark '?') →
      (∀ text, next ≠ some (.word text)) → Stops ⟨.argument, pending, n⟩ next .expectedName
  | argumentDepth {pending n next} : maxNesting ≤ pending.length → next ≠ some (.mark '?') →
      Stops ⟨.argument, pending, n⟩ next .nestingTooDeep
  | keyword {list outer n next} : (∀ text, next ≠ some (.word text)) →
      next ≠ some (.mark ',') → next ≠ some (.mark '>') →
      Stops ⟨.question, list :: outer, n⟩ next .expectedName
  | openBracket {phase t pending} : phase.whole? = some t →
      Stops ⟨phase, pending, maxDimensions⟩ (some (.mark '[')) .tooManyDimensions
  | closeBracket {t pending n next} : next ≠ some (.mark ']') →
      Stops ⟨.bracket t, pending, n⟩ next (.expectedMark ']')
  | last {phase t list outer n next} : phase.whole? = some t → next ≠ some (.mark '[') →
      next ≠ some (.mark ',') → next ≠ some (.mark '>') →
      (∀ text, phase = .name text → next ≠ some (.mark '<')) →
      Stops ⟨phase, list :: outer, n⟩ next (.expectedMark '>')
  | trailing {phase t n symbol} : phase.whole? = some t → symbol ≠ .mark '[' →
      (∀ text, phase = .name text → symbol ≠ .mark '<') →
      Stops ⟨phase, [], n⟩ (some symbol) .trailingInput

/-- The reader fails behind the word that comes next. -/
inductive StopsBehind : Reader → String → Fault → Prop
  | keyword {list outer n text} : text ≠ "extends" → text ≠ "super" →
      StopsBehind ⟨.question, list :: outer, n⟩ text .expectedBound
  | boundDepth {list outer n text} : maxNesting ≤ (list :: outer).length →
      StopsBehind ⟨.question, list :: outer, n⟩ text .nestingTooDeep

variable {reader : Reader} {lexeme : Lexeme} {error : SyntaxError} {fault : Fault}

theorem Stops.of_stepDone {t : TypeExpr} (whole : reader.phase.whole? = some t)
    (notOpening : ∀ text, reader.phase = .name text → lexeme.symbol ≠ .mark '<')
    (failed : reader.stepDone t lexeme = .error error) :
    Stops reader (some lexeme.symbol) error.fault ∧ error.offset = lexeme.start := by
  rcases reader with ⟨phase, pending, n⟩
  rcases lexeme with ⟨symbol, start, stop⟩
  simp only [stepDone] at failed
  split at failed
  · split_ifs at failed with full
    cases failed
    obtain rfl : n = maxDimensions := full
    exact ⟨.openBracket whole, rfl⟩
  · contradiction
  · contradiction
  · cases failed
    rename_i notBracket
    exact ⟨.trailing whole notBracket notOpening, rfl⟩
  · cases failed
    rename_i notBracket notComma notClosing
    refine ⟨.last whole (mt Option.some.inj notBracket) (mt Option.some.inj notComma)
      (mt Option.some.inj notClosing) fun text isName => ?_, rfl⟩
    exact mt Option.some.inj (notOpening text isName)

theorem Stops.of_stepQuestion {list : OpenList} {outer : List OpenList} {n : Nat}
    (failed : stepQuestion ⟨.question, list :: outer, n⟩ lexeme = .error error) :
    Stops ⟨.question, list :: outer, n⟩ (some lexeme.symbol) error.fault ∧
        error.offset = lexeme.start ∨
      ∃ text, lexeme.symbol = .word text ∧
        StopsBehind ⟨.question, list :: outer, n⟩ text error.fault ∧
        error.offset = lexeme.stop := by
  rcases lexeme with ⟨symbol, start, stop⟩
  simp only [stepQuestion] at failed
  split at failed
  · contradiction
  · contradiction
  · right
    split_ifs at failed with extending deep super deep
    · cases failed
      exact ⟨_, rfl, .boundDepth deep, rfl⟩
    · cases failed
      exact ⟨_, rfl, .boundDepth deep, rfl⟩
    · cases failed
      exact ⟨_, rfl, .keyword extending super, rfl⟩
  · rename_i symbol _ notComma notClosing notWord
    cases failed
    left
    refine ⟨.keyword (fun text same => ?_) (fun same => ?_) (fun same => ?_), rfl⟩
    · exact notWord text _ _ (Option.some.inj same) rfl
    · exact notComma _ _ (Option.some.inj same) rfl
    · exact notClosing _ _ (Option.some.inj same) rfl

/-- A failing step fails in front of the lexeme, or behind it if it is a word after a `?`. -/
theorem Stops.of_step (valid : reader.Valid) (failed : reader.step lexeme = .error error) :
    Stops reader (some lexeme.symbol) error.fault ∧ error.offset = lexeme.start ∨
      ∃ text, lexeme.symbol = .word text ∧ StopsBehind reader text error.fault ∧
        error.offset = lexeme.stop := by
  rcases reader with ⟨phase, pending, n⟩
  rcases lexeme with ⟨symbol, start, stop⟩
  cases phase with
  | type =>
      cases symbol with
      | word text => contradiction
      | mark c =>
          cases failed
          exact .inl ⟨.typeName (by simp), rfl⟩
  | argument =>
      left
      by_cases question : symbol = .mark '?'
      · subst question
        contradiction
      · have notQuestion := mt Option.some.inj question
        simp only [step] at failed
        split_ifs at failed with deep
        · cases failed
          exact ⟨.argumentDepth deep notQuestion, rfl⟩
        · cases symbol with
          | word text => contradiction
          | mark c =>
              cases failed
              exact ⟨.argumentName (Nat.lt_of_not_le deep) notQuestion (by simp), rfl⟩
  | question =>
      obtain ⟨list, outer, rfl, _⟩ := valid.phase
      exact Stops.of_stepQuestion failed
  | name text =>
      left
      by_cases opening : symbol = .mark '<'
      · subst opening
        contradiction
      · simp only [step] at failed
        exact Stops.of_stepDone rfl (fun _ _ => opening) failed
  | done t =>
      left
      exact Stops.of_stepDone rfl (by simp) failed
  | bracket component =>
      left
      by_cases closing : symbol = .mark ']'
      · subst closing
        contradiction
      · simp only [step] at failed
        cases failed
        exact ⟨.closeBracket (mt Option.some.inj closing), rfl⟩

theorem Stops.step_eq_error {symbol : Symbol} (stops : Stops reader (some symbol) fault)
    (symbol_eq : lexeme.symbol = symbol) : reader.step lexeme = .error ⟨fault, lexeme.start⟩ := by
  rcases lexeme with ⟨symbol', start, stop⟩
  obtain rfl : symbol' = symbol := symbol_eq
  cases stops with
  | typeName notWord =>
      cases symbol' with
      | word text => exact absurd rfl (notWord text)
      | mark c => rfl
  | argumentName shallow notQuestion notWord =>
      cases symbol' with
      | word text => exact absurd rfl (notWord text)
      | mark c => simp_all [step, Nat.not_le_of_lt shallow]
  | argumentDepth deep notQuestion => simp_all [step]
  | keyword notWord notComma notClosing =>
      cases symbol' with
      | word text => exact absurd rfl (notWord text)
      | mark c => simp_all [step, stepQuestion]
  | @openBracket phase t _ whole =>
      cases phase <;> cases whole <;> rfl
  | closeBracket notClosing => simp_all [step]
  | @last phase t _ _ _ _ whole notBracket notComma notClosing notOpening =>
      cases phase <;> cases whole <;> simp_all [step, stepDone]
  | @trailing phase t _ _ whole notBracket notOpening =>
      cases phase <;> cases whole <;> simp_all [step, stepDone]

/-- The text of a word does not matter for a failure in front of it. -/
theorem Stops.congr {symbol other : Symbol} (stops : Stops reader (some symbol) fault)
    (alike : symbol.StartsAlike other) : Stops reader (some other) fault := by
  cases symbol with
  | mark c =>
      cases other with
      | word text => contradiction
      | mark d =>
          obtain rfl : c = d := alike
          exact stops
  | word text =>
      cases other with
      | mark c => contradiction
      | word otherText =>
          cases stops with
          | typeName notWord | argumentName _ _ notWord | keyword notWord _ _ =>
              exact absurd rfl (notWord text)
          | argumentDepth deep _ => exact .argumentDepth deep nofun
          | closeBracket _ => exact .closeBracket nofun
          | last whole _ _ _ _ => exact .last whole nofun nofun nofun nofun
          | trailing whole _ _ => exact .trailing whole nofun nofun

/-- A reader that fails at the end of a text fails in front of nothing. -/
theorem Stops.of_finish {offset : Nat} (valid : reader.Valid)
    (failed : reader.finish offset = .error error) :
    Stops reader none error.fault ∧ error.offset = offset := by
  rcases reader with ⟨phase, pending, n⟩
  cases phase with
  | type =>
      cases failed
      exact ⟨.typeName (by simp), rfl⟩
  | argument =>
      simp only [finish] at failed
      split_ifs at failed with deep
      · cases failed
        exact ⟨.argumentDepth deep (by simp), rfl⟩
      · cases failed
        exact ⟨.argumentName (Nat.lt_of_not_le deep) (by simp) (by simp), rfl⟩
  | question =>
      obtain ⟨list, outer, rfl, _⟩ := valid.phase
      cases failed
      exact ⟨.keyword (by simp) (by simp) (by simp), rfl⟩
  | name text | done t =>
      cases pending with
      | nil => contradiction
      | cons list outer =>
          cases failed
          exact ⟨.last rfl (by simp) (by simp) (by simp) (by simp), rfl⟩
  | bracket component =>
      cases failed
      exact ⟨.closeBracket (by simp), rfl⟩

/-! ## Completing what has been read -/

/-- Some characters make a whole type of what the reader has passed. -/
def Completable (reader : Reader) : Prop :=
  ∃ chars phase n t, phase.whole? = some t ∧ Reads reader (Symbol.ofChars chars) ⟨phase, [], n⟩

variable {phase : Phase} {pending : List OpenList} {t : TypeExpr} {n : Nat}

theorem ofChars_replicate_closing (count : Nat) :
    Symbol.ofChars (List.replicate count '>') = List.replicate count (.mark '>') := by
  induction count with
  | zero => exact Symbol.ofChars_nil
  | succ count ih =>
      rw [List.replicate_succ, Symbol.ofChars_cons_of_mark (by decide) (by decide), ih,
        List.replicate_succ]

/-- After a whole type, all open lists can be closed one after the other. -/
theorem exists_reads_closing (whole : phase.whole? = some t) (pending : List OpenList) (n : Nat) :
    ∃ last u, last.whole? = some u ∧
      Reads ⟨phase, pending, n⟩ (List.replicate pending.length (.mark '>')) ⟨last, [], n⟩ := by
  induction pending generalizing phase t with
  | nil =>
      refine ⟨phase, t, whole, fun lexemes none => ?_⟩
      obtain rfl := List.map_eq_nil_iff.mp none
      rfl
  | cons list outer ih =>
      obtain ⟨last, u, lastWhole, reads⟩ := @ih (.done _) _ rfl
      exact ⟨last, u, lastWhole, .cons (.last whole) reads⟩

theorem completable_of_whole (whole : phase.whole? = some t) :
    Completable ⟨phase, pending, n⟩ := by
  obtain ⟨last, u, lastWhole, reads⟩ := exists_reads_closing whole pending n
  rw [← ofChars_replicate_closing] at reads
  exact ⟨_, last, n, u, lastWhole, reads⟩

theorem completable_of_name (start : phase = .type ∨ phase = .argument)
    (shallow : pending.length < maxNesting) : Completable ⟨phase, pending, n⟩ := by
  obtain ⟨last, u, lastWhole, reads⟩ :=
    @exists_reads_closing (.name "a") _ rfl pending n
  have cut : Symbol.Apart "a ".toList (List.replicate pending.length '>') :=
    Symbol.apart_of_left (show _ = some ' ' by decide) (by decide)
  have name : Symbol.ofChars "a ".toList = [.word "a"] := by decide +kernel
  refine ⟨"a ".toList ++ List.replicate pending.length '>', last, n, u, lastWhole, ?_⟩
  rw [Symbol.ofChars_append cut, name, ofChars_replicate_closing]
  exact .cons (step_word start shallow) reads

theorem completable_of_bracket {component : TypeExpr} :
    Completable ⟨.bracket component, pending, n⟩ := by
  obtain ⟨last, u, lastWhole, reads⟩ :=
    @exists_reads_closing (.done (.array component)) _ rfl pending n
  refine ⟨']' :: List.replicate pending.length '>', last, n, u, lastWhole, ?_⟩
  rw [Symbol.ofChars_cons_of_mark (by decide) (by decide), ofChars_replicate_closing]
  exact .cons .closeBracket reads

theorem completable_of_question {list : OpenList} {outer : List OpenList} :
    Completable ⟨.question, list :: outer, n⟩ := by
  obtain ⟨last, u, lastWhole, reads⟩ :=
    @exists_reads_closing (.done _) _ rfl outer n
  refine ⟨List.replicate (list :: outer).length '>', last, n, u, lastWhole, ?_⟩
  rw [ofChars_replicate_closing]
  exact .cons .lastUnbounded reads

/-- What stands in front of a fault can be completed, unless the nesting is too deep. -/
theorem Stops.completable {next : Option Symbol} (stops : Stops reader next fault)
    (valid : reader.Valid) (replaceable : fault ∈ Fault.replaceable) : reader.Completable := by
  cases stops with
  | typeName _ => exact completable_of_name (.inl rfl) valid.phase
  | argumentName shallow _ _ => exact completable_of_name (.inr rfl) shallow
  | argumentDepth _ _ => simp [Fault.replaceable] at replaceable
  | keyword _ _ _ => exact completable_of_question
  | openBracket whole => exact completable_of_whole whole
  | closeBracket _ => exact completable_of_bracket
  | last whole _ _ _ _ => exact completable_of_whole whole
  | trailing whole _ _ => exact completable_of_whole whole

/-- A text whose lexemes have been read is the beginning of a type expression if the reader can be
completed. -/
theorem Completable.exists_parse {before : List Char} (completable : reader.Completable)
    (run : (Lexeme.scanFrom 0 [] before).foldlM step start = .ok reader) :
    ∃ rest t, parse (String.ofList before ++ rest) = .ok t := by
  obtain ⟨chars, phase, n, t, whole, reads⟩ := completable
  refine ⟨String.ofList (' ' :: chars), t, ?_⟩
  have cut : Symbol.Apart before (' ' :: chars) := Symbol.apart_of_right rfl (by decide)
  have blank : Symbol.ofChars (' ' :: chars) = Symbol.ofChars chars :=
    Symbol.ofChars_cons_of_isSpace (by decide) chars
  have restRun := reads (Lexeme.scanFrom (0 + before.length) [] (' ' :: chars)) (by
    rw [Lexeme.map_symbol_scanFrom (List.forall_mem_nil _), List.reverse_nil, List.nil_append,
      blank])
  rw [parse, Lexeme.scan, String.toList_append, String.toList_ofList, String.toList_ofList,
    Lexeme.scanFrom_append cut, List.foldlM_append]
  refine Except.bind_eq_ok_iff.mpr ⟨_, Except.bind_eq_ok_iff.mpr ⟨reader, run, restRun⟩, ?_⟩
  exact finish_of_whole whole _

end Reader

/-- What the error about a text says about the place of the fault. -/
structure SyntaxError.Exact (error : SyntaxError) (signature : String) : Prop where
  /-- The place is that of a character of the text, or the end of the text. -/
  offset_le : error.offset ≤ signature.length
  /-- Whatever follows the character at the place, the error is the same. -/
  stable : error.offset < signature.length → ∀ other : String,
    other.toList.take (error.offset + 1) = signature.toList.take (error.offset + 1) →
      parse other = .error error
  /-- What stands in front of the place is the beginning of a type expression, unless the fault is
  in the word in front of the place or in the depth of nesting. -/
  completable :
    error.fault ∈ Fault.replaceable → ∃ rest t,
      parse (String.ofList (signature.toList.take error.offset) ++ rest) = .ok t

namespace Reader

/-- The error is exact if the reader fails at a lexeme. -/
theorem exact_of_step {signature : String} {front back : List Lexeme} (valid : reader.Valid)
    (scanned : Lexeme.scan signature = front ++ lexeme :: back)
    (run : front.foldlM step start = .ok reader) (failed : reader.step lexeme = .error error) :
    error.Exact signature := by
  obtain ⟨before, spelling, after, split, stands⟩ := Lexeme.exists_stands scanned
  have length_eq : signature.length = before.length + (spelling.length + after.length) := by
    rw [← String.length_toList, split, List.length_append, List.length_append]
  have start_eq : lexeme.start = before.length := stands.start_eq.trans (Nat.zero_add _)
  have stop_eq : lexeme.stop = before.length + spelling.length := by
    rw [stands.stop_eq, start_eq]
  rcases Stops.of_step valid failed with ⟨stops, offset_eq⟩ | ⟨text, _, behind, offset_eq⟩
  · exact {
      offset_le := by omega
      stable := by
        intro _ other agree
        rw [offset_eq, split] at agree
        obtain ⟨otherLexeme, otherBack, otherScanned, sameStart, alike⟩ :=
          stands.exists_of_agree_start agree
        have otherFailed : reader.step otherLexeme = .error error := by
          rw [(stops.congr alike).step_eq_error rfl, sameStart, ← offset_eq]
        rw [parse, Lexeme.scan, otherScanned, Except.foldlM_eq_error run otherFailed]
        rfl
      completable := by
        intro replaceable
        rw [← stands.front_eq] at run
        rw [offset_eq, start_eq, split, List.take_left]
        exact (stops.completable valid replaceable).exists_parse run }
  · exact {
      offset_le := by omega
      stable := by
        intro inside other agree
        have nonempty : after ≠ [] := by
          rintro rfl
          rw [List.length_nil] at length_eq
          omega
        rw [offset_eq, split] at agree
        obtain ⟨otherBack, otherScanned⟩ := stands.exists_of_agree_stop nonempty agree
        rw [parse, Lexeme.scan, otherScanned, Except.foldlM_eq_error run failed]
        rfl
      completable := by
        intro replaceable
        generalize error.fault = fault at behind replaceable
        cases behind <;> simp [Fault.replaceable] at replaceable }

/-- The error is exact if the text ends too early. -/
theorem exact_of_finish {signature : String} (valid : reader.Valid)
    (run : (Lexeme.scan signature).foldlM step start = .ok reader)
    (failed : reader.finish signature.length = .error error) : error.Exact signature := by
  obtain ⟨stops, offset_eq⟩ := Stops.of_finish valid failed
  exact {
    offset_le := offset_eq.le
    stable := fun inside => absurd offset_eq inside.ne
    completable := by
      intro replaceable
      rw [offset_eq, ← String.length_toList, List.take_length]
      exact (stops.completable valid replaceable).exists_parse run }

end Reader

theorem exact_of_parse_eq_error {signature : String} {error : SyntaxError}
    (failed : parse signature = .error error) : error.Exact signature := by
  rcases Except.bind_eq_error_iff.mp failed with failed | ⟨reader, run, failed⟩
  · obtain ⟨front, lexeme, back, reader, scanned, run, failed⟩ :=
      Except.exists_of_foldlM_eq_error failed
    have lexical : ∀ other ∈ front, other.symbol.IsLexical := by
      intro other member
      have scannedMember : other ∈ Lexeme.scan signature := by
        rw [scanned]
        exact List.mem_append_left _ member
      exact Lexeme.isLexical_of_mem_scan scannedMember
    exact Reader.exact_of_step (Reader.valid_start.of_foldlM lexical run).1 scanned run failed
  · have lexical : ∀ other ∈ Lexeme.scan signature, other.symbol.IsLexical :=
      fun _ member => Lexeme.isLexical_of_mem_scan member
    exact Reader.exact_of_finish (Reader.valid_start.of_foldlM lexical run).1 run failed

/-- A text that is no type expression is refused with an error that carries the text, and whose place
is exact: no type expression starts like the text up to the character at that place, and where
something else could stand there, some type expression starts like the text in front of it. -/
theorem readType_error_exact {signature : String} {error : Error}
    (refused : readType signature = .error error) :
    ∃ fault offset, parse signature = .error ⟨fault, offset⟩ ∧
      error = .invalidSignature signature (fault.message ++ " at offset " ++ toString offset) ∧
      SyntaxError.Exact ⟨fault, offset⟩ signature := by
  obtain ⟨⟨fault, offset⟩, failed, rfl⟩ := Except.mapError_eq_error_iff.mp refused
  exact ⟨fault, offset, failed, rfl, exact_of_parse_eq_error failed⟩

theorem readType_error_exact_map :
    readType "Map<?, a b>" =
        .error (.invalidSignature "Map<?, a b>" "expected '>' at offset 9") ∧
      (∀ other : String, other.toList.take 10 = "Map<?, a b>".toList.take 10 →
        parse other = .error ⟨.expectedMark '>', 9⟩) ∧
      ∃ rest t, parse ("Map<?, a " ++ rest) = .ok t := by
  have refused : readType "Map<?, a b>" =
      .error (.invalidSignature "Map<?, a b>" "expected '>' at offset 9") := rfl
  have place : parse "Map<?, a b>" = .error ⟨.expectedMark '>', 9⟩ := rfl
  obtain ⟨fault, offset, failed, _, exact⟩ := readType_error_exact refused
  cases failed.symm.trans place
  exact ⟨refused, exact.stable (by decide), exact.completable (by decide)⟩

end BridgeMethods.TypeExpr
