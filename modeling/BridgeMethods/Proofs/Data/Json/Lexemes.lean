import BridgeMethods.Data.Json.Lexeme
import BridgeMethods.Data.Json.Printer
import Mathlib.Data.List.Basic
import Mathlib.Data.List.TakeWhile

/-!
# What is written is cut into lexemes

Blanks, marks, quoted texts and words are cut off the front of a text wherever they stand; a word
only in front of something that ends it.  A quoted text is one lexeme with just its characters,
since what is escaped is read back, and the numeral of an integer is a word with its value.
-/

namespace BridgeMethods.Data.Json

/-! ## One character -/

theorem lexFrom_word_nil (passed : List Char) : lexFrom (.word passed) [] = consWord? passed [] :=
  rfl

theorem lexFrom_word_cons (passed : List Char) (c : Char) (rest : List Char) :
    lexFrom (.word passed) (c :: rest) =
      if isWordChar c then lexFrom (.word (c :: passed)) rest
      else if c = '"' then (lexFrom (.text .start) rest).bind (consWord? passed)
      else if isSpace c then (lexFrom (.word []) rest).bind (consWord? passed)
      else (punctuation? c).bind fun mark =>
        (lexFrom (.word []) rest).bind fun lexemes => consWord? passed (mark :: lexemes) :=
  rfl

theorem lexFrom_text_cons {c : Char} (noBackslash : c ≠ '\\') (state : TextState)
    (rest : List Char) :
    lexFrom (.text state) (c :: rest) =
      if c = '"' then (lexFrom (.word []) rest).map (.text state.finish :: ·)
      else if c.toNat < 0x20 then none else lexFrom (.text (state.push c)) rest := by
  rw [lexFrom]
  · simp only [noBackslash, decide_false, Bool.false_or, decide_eq_true_eq]
    congr 1
    cases lexFrom (.word []) rest <;> rfl
  all_goals
    intros
    contradiction

/-- A backslash and a letter are read as the character they stand for. -/
theorem lexFrom_escaped {letter c : Char} (stands : escaped? letter = some c) (state : TextState)
    (rest : List Char) :
    lexFrom (.text state) ('\\' :: letter :: rest) = lexFrom (.text (state.push c)) rest := by
  unfold escaped? at stands
  split at stands
  case h_9 => contradiction
  all_goals
    obtain rfl := Option.some.inj stands
    rfl

theorem lexFrom_unit (state : TextState) (a b c d : Char) (rest : List Char) :
    lexFrom (.text state) ('\\' :: 'u' :: a :: b :: c :: d :: rest) = (do
      let unit := (((← hexDigit? a) * 16 + (← hexDigit? b)) * 16 + (← hexDigit? c)) * 16
        + (← hexDigit? d)
      lexFrom (.text (state.pushUnit unit)) rest) :=
  rfl

/-! ## Texts and their lexemes -/

/-- A text that is cut into lexemes, whatever comes after it. -/
def Lexes (text : List Char) (lexemes : List Lexeme) : Prop :=
  ∀ rest, lexFrom (.word []) (text ++ rest) = (lexFrom (.word []) rest).map (lexemes ++ ·)

/-- A text in front of which a word ends. -/
def EndsWord (rest : List Char) : Prop :=
  ∀ c, rest.head? = some c → isWordChar c = false

/-- A text that is cut into lexemes, whatever comes after it that ends a word. -/
def LexesBefore (text : List Char) (lexemes : List Lexeme) : Prop :=
  ∀ rest, EndsWord rest →
    lexFrom (.word []) (text ++ rest) = (lexFrom (.word []) rest).map (lexemes ++ ·)

theorem Lexes.before {text : List Char} {lexemes : List Lexeme} (lexes : Lexes text lexemes) :
    LexesBefore text lexemes :=
  fun rest _ => lexes rest

theorem Lexes.nil : Lexes [] [] := by
  intro rest
  simp

theorem Lexes.append {left right : List Char} {lefts rights : List Lexeme}
    (first : Lexes left lefts) (second : Lexes right rights) :
    Lexes (left ++ right) (lefts ++ rights) := by
  intro rest
  rw [List.append_assoc, first, second, Option.map_map]
  simp only [Function.comp_def, List.append_assoc]

theorem LexesBefore.append {left right : List Char} {lefts rights : List Lexeme}
    (first : LexesBefore left lefts) (second : Lexes right rights) (nonempty : right ≠ [])
    (ends : EndsWord right) : Lexes (left ++ right) (lefts ++ rights) := by
  intro rest
  have endsHere : EndsWord (right ++ rest) := by
    intro c starts
    rw [List.head?_append_of_ne_nil _ nonempty] at starts
    exact ends c starts
  rw [List.append_assoc, first _ endsHere, second, Option.map_map]
  simp only [Function.comp_def, List.append_assoc]

theorem Lexes.append_before {left right : List Char} {lefts rights : List Lexeme}
    (first : Lexes left lefts) (second : LexesBefore right rights) :
    LexesBefore (left ++ right) (lefts ++ rights) := by
  intro rest ends
  rw [List.append_assoc, first, second rest ends, Option.map_map]
  simp only [Function.comp_def, List.append_assoc]

/-! ## Blanks and marks -/

theorem consWord?_nil : consWord? [] = some := rfl

theorem isWordChar_of_isSpace {c : Char} (space : isSpace c = true) : isWordChar c = false := by
  have cases : c = ' ' ∨ c = '\t' ∨ c = '\n' ∨ c = '\r' := by
    simpa [isSpace, or_assoc] using space
  rcases cases with rfl | rfl | rfl | rfl <;> decide

theorem lexes_space {c : Char} (space : isSpace c = true) : Lexes [c] [] := by
  intro rest
  have noQuote : c ≠ '"' := by
    rintro rfl
    simp [isSpace] at space
  simp [lexFrom_word_cons, isWordChar_of_isSpace space, noQuote, space, consWord?_nil]

theorem lexes_blank {text : List Char} (blank : ∀ c ∈ text, isSpace c = true) : Lexes text [] := by
  induction text with
  | nil => exact Lexes.nil
  | cons c text ih =>
      obtain ⟨first, others⟩ := List.forall_mem_cons.mp blank
      exact (lexes_space first).append (ih others)

theorem isWordChar_of_punctuation? {c : Char} {mark : Lexeme}
    (isMark : punctuation? c = some mark) : isWordChar c = false := by
  unfold punctuation? at isMark
  split at isMark <;> first | decide | contradiction

theorem lexes_mark {c : Char} {mark : Lexeme} (isMark : punctuation? c = some mark) :
    Lexes [c] [mark] := by
  intro rest
  have noWord := isWordChar_of_punctuation? isMark
  have plain : c ≠ '"' ∧ isSpace c = false := by
    unfold punctuation? at isMark
    split at isMark <;> first | decide | contradiction
  obtain ⟨noQuote, noSpace⟩ := plain
  simp only [List.singleton_append, lexFrom_word_cons, noWord, noQuote, noSpace, isMark,
    Bool.false_eq_true, if_false]
  cases lexFrom (.word []) rest <;> rfl

/-! ## Words -/

theorem lexFrom_word_append {word : List Char} (isWord : ∀ c ∈ word, isWordChar c = true)
    (passed rest : List Char) :
    lexFrom (.word passed) (word ++ rest) = lexFrom (.word (word.reverse ++ passed)) rest := by
  induction word generalizing passed with
  | nil => rfl
  | cons c word ih =>
      obtain ⟨first, others⟩ := List.forall_mem_cons.mp isWord
      rw [List.cons_append, lexFrom_word_cons, if_pos first, ih others]
      simp

theorem lexFrom_of_endsWord {rest : List Char} (ends : EndsWord rest) (passed : List Char) :
    lexFrom (.word passed) rest = (lexFrom (.word []) rest).bind (consWord? passed) := by
  cases rest with
  | nil => rfl
  | cons c rest =>
      have noWord : isWordChar c = false := ends c rfl
      simp only [lexFrom_word_cons, noWord, Bool.false_eq_true, if_false, consWord?_nil,
        Option.bind_fun_some]
      split_ifs
      · rfl
      · rfl
      · cases punctuation? c with
        | none => rfl
        | some mark => cases lexFrom (.word []) rest <;> rfl

/-- A word with a value is cut off in front of what ends it. -/
theorem lexesBefore_word {word : List Char} {value : Data}
    (isWord : word.all isWordChar = true) (hasValue : ofWord? word = some value) :
    LexesBefore word [.word value] := by
  intro rest ends
  have nonempty : word ≠ [] := by
    rintro rfl
    simp [ofWord?, isNumber] at hasValue
  rw [lexFrom_word_append (List.all_eq_true.mp isWord), lexFrom_of_endsWord ends, List.append_nil]
  have whole (lexemes : List Lexeme) :
      consWord? word.reverse lexemes = some (.word value :: lexemes) := by
    simp [consWord?, nonempty, hasValue]
  cases lexFrom (.word []) rest with
  | none => rfl
  | some lexemes => exact whole lexemes

/-! ## Numerals -/

theorem ofDigits_eq (digits : List Char) : ofDigits digits = Nat.ofDigitChars 10 digits 0 := by
  unfold ofDigits Nat.ofDigitChars
  congr 1
  funext value c
  rw [Nat.mul_comm]

theorem ofDigits_toDigits (n : Nat) : ofDigits (Nat.toDigits 10 n) = n := by
  rw [ofDigits_eq, Nat.ofDigitChars_ten_toDigits]

theorem forall_isDigit_toDigits (n : Nat) : ∀ c ∈ Nat.toDigits 10 n, c.isDigit = true :=
  fun _ => Nat.isDigit_of_mem_toDigits (by decide) (by decide)

theorem all_isDigit_toDigits (n : Nat) : (Nat.toDigits 10 n).all Char.isDigit = true :=
  List.all_eq_true.mpr (forall_isDigit_toDigits n)

/-- The first digit of a positive number is not zero. -/
theorem head?_toDigits_ne_zero {n : Nat} (positive : 0 < n) :
    (Nat.toDigits 10 n).head? ≠ some '0' := by
  have oneDigit : ∀ m < 10, 0 < m → m.digitChar ≠ '0' := by decide
  induction n using Nat.strongRecOn with
  | ind n ih =>
      by_cases small : n < 10
      · rw [Nat.toDigits_of_lt_base small]
        simpa using oneDigit n small positive
      · have split : Nat.toDigits 10 (n / 10) ++ Nat.toDigits 10 (n % 10) = Nat.toDigits 10 n := by
          rw [Nat.toDigits_append_toDigits (by decide) (by omega) (by omega)]
          congr 1
          omega
        rw [← split, List.head?_append_of_ne_nil _ Nat.toDigits_ne_nil]
        exact ih (n / 10) (by omega) (by omega)

/-- Digits without a superfluous zero are a number, with a sign or without. -/
theorem isNumber_of_toDigits {word : List Char} {n : Nat}
    (unsigned : (if word.head? = some '-' then word.tail else word) = Nat.toDigits 10 n) :
    isNumber word = true := by
  have whole : (Nat.toDigits 10 n).takeWhile Char.isDigit = Nat.toDigits 10 n :=
    List.takeWhile_eq_self_iff.mpr (forall_isDigit_toDigits n)
  have nothing : (Nat.toDigits 10 n).dropWhile Char.isDigit = [] :=
    List.dropWhile_eq_nil_iff.mpr (forall_isDigit_toDigits n)
  have fits : Nat.toDigits 10 n = ['0'] ∨ (Nat.toDigits 10 n).head? ≠ some '0' := by
    rcases Nat.eq_zero_or_pos n with rfl | positive
    · exact .inl (Nat.toDigits_zero 10)
    · exact .inr (head?_toDigits_ne_zero positive)
  rw [isNumber]
  simp only [unsigned, whole, nothing]
  simpa using fits

theorem ofWord?_toDigits (n : Nat) : ofWord? (Nat.toDigits 10 n) = some (.integer n) := by
  have noWord (word : List Char) (letter : word.all Char.isDigit = false) :
      Nat.toDigits 10 n ≠ word := by
    rintro rfl
    simp [all_isDigit_toDigits] at letter
  have noSign : (Nat.toDigits 10 n).head? ≠ some '-' := fun starts => by
    have digit := forall_isDigit_toDigits n '-' (List.mem_of_head? starts)
    contradiction
  have number : isNumber (Nat.toDigits 10 n) = true := isNumber_of_toDigits (if_neg noSign)
  rw [ofWord?, if_neg (noWord _ (by decide)), if_neg (noWord _ (by decide)),
    if_neg (noWord _ (by decide)), if_pos number, if_pos (all_isDigit_toDigits n),
    ofDigits_toDigits]

theorem ofWord?_neg_toDigits (n : Nat) :
    ofWord? ('-' :: Nat.toDigits 10 n) = some (.integer (-n)) := by
  have noWord (word : List Char) (letter : word.head? ≠ some '-') :
      '-' :: Nat.toDigits 10 n ≠ word := by
    rintro rfl
    exact letter rfl
  have number : isNumber ('-' :: Nat.toDigits 10 n) = true := isNumber_of_toDigits (if_pos rfl)
  have signed : ('-' :: Nat.toDigits 10 n).all Char.isDigit = false := by simp
  rw [ofWord?, if_neg (noWord _ (by decide)), if_neg (noWord _ (by decide)),
    if_neg (noWord _ (by decide)), if_pos number, signed, if_neg Bool.false_ne_true, List.tail_cons,
    if_pos (all_isDigit_toDigits n), ofDigits_toDigits]

theorem isWordChar_of_isDigit {c : Char} (digit : c.isDigit = true) : isWordChar c = true := by
  simp [isWordChar, Char.isAlphanum, digit]

/-- An integer is read back from its numeral. -/
theorem lexesBefore_toString (value : Int) :
    LexesBefore (toString value).toList [.word (.integer value)] := by
  have digitsOnly (n : Nat) : (Nat.toDigits 10 n).all isWordChar = true :=
    List.all_eq_true.mpr fun c member => isWordChar_of_isDigit (forall_isDigit_toDigits n c member)
  cases value with
  | ofNat n =>
      have text : (toString (Int.ofNat n)).toList = Nat.toDigits 10 n := String.toList_ofList
      rw [text]
      exact lexesBefore_word (digitsOnly n) (ofWord?_toDigits n)
  | negSucc n =>
      have text : (toString (Int.negSucc n)).toList = '-' :: Nat.toDigits 10 (n + 1) := by
        change ("-" ++ Nat.repr (n + 1)).toList = _
        simp [Nat.repr]
      rw [text]
      exact lexesBefore_word (digitsOnly (n + 1)) (ofWord?_neg_toDigits (n + 1))

/-! ## Texts -/

theorem hexDigit?_hexDigit {value : Nat} (small : value < 16) :
    hexDigit? (hexDigit value) = some value := by
  have all : ∀ value < 16, hexDigit? (hexDigit value) = some value := by decide
  exact all value small

/-- The unit of a character that is no half of a pair is read as the character. -/
theorem TextState.pushUnit_toNat (state : TextState) {c : Char} (small : c.toNat < 0xD800) :
    state.pushUnit c.toNat = state.push c := by
  rw [pushUnit, if_neg (by omega), if_neg (by omega), Char.ofNat_toNat]

/-- A control character is read back from its unit in four digits. -/
theorem lexFrom_control {c : Char} (control : c.toNat < 0x20) (state : TextState)
    (rest : List Char) :
    lexFrom (.text state)
      ('\\' :: 'u' :: '0' :: '0' :: hexDigit (c.toNat / 16) :: hexDigit (c.toNat % 16) :: rest)
      = lexFrom (.text (state.push c)) rest := by
  have zero : hexDigit? '0' = some 0 := by decide
  have high := @hexDigit?_hexDigit (c.toNat / 16) (by omega)
  have low := @hexDigit?_hexDigit (c.toNat % 16) (by omega)
  have unit : ((0 * 16 + 0) * 16 + c.toNat / 16) * 16 + c.toNat % 16 = c.toNat := by omega
  simp only [lexFrom_unit, zero, high, low, Option.bind_eq_bind, Option.bind_some, unit,
    state.pushUnit_toNat (by omega : c.toNat < 0xD800)]

/-- The written form of a character is read as the character. -/
theorem lexFrom_escape (c : Char) (state : TextState) (rest : List Char) :
    lexFrom (.text state) (escape c ++ rest) = lexFrom (.text (state.push c)) rest := by
  unfold escape
  split_ifs with quote backslash backspace formFeed lineFeed carriageReturn tab control
  case pos =>
    rw [quote]
    exact lexFrom_escaped rfl state rest
  case pos =>
    rw [backslash]
    exact lexFrom_escaped rfl state rest
  case pos =>
    rw [backspace]
    exact lexFrom_escaped rfl state rest
  case pos =>
    rw [formFeed]
    exact lexFrom_escaped rfl state rest
  case pos =>
    rw [lineFeed]
    exact lexFrom_escaped rfl state rest
  case pos =>
    rw [carriageReturn]
    exact lexFrom_escaped rfl state rest
  case pos =>
    rw [tab]
    exact lexFrom_escaped rfl state rest
  case pos => exact lexFrom_control control state rest
  case neg =>
    rw [List.singleton_append, lexFrom_text_cons backslash, if_neg quote, if_neg control]

theorem lexFrom_escapes (characters : List Char) (state : TextState) (rest : List Char) :
    lexFrom (.text state) (characters.flatMap escape ++ rest)
      = lexFrom (.text (characters.foldl TextState.push state)) rest := by
  induction characters generalizing state with
  | nil => rfl
  | cons c characters ih =>
      rw [List.flatMap_cons, List.append_assoc, lexFrom_escape, ih, List.foldl_cons]

/-- Pushing characters onto a text that is whole leaves it whole. -/
theorem TextState.foldl_push (characters passed : List Char) :
    characters.foldl TextState.push ⟨passed, none, false⟩
      = ⟨characters.reverse ++ passed, none, false⟩ := by
  induction characters generalizing passed with
  | nil => rfl
  | cons c characters ih =>
      rw [List.foldl_cons, List.reverse_cons, List.append_assoc]
      exact ih (c :: passed)

theorem lexFrom_opening (rest : List Char) :
    lexFrom (.word []) ('"' :: rest) = lexFrom (.text .start) rest := by
  have noWord : isWordChar '"' = false := by decide
  rw [lexFrom_word_cons, noWord, if_neg Bool.false_ne_true, if_pos rfl, consWord?_nil,
    Option.bind_fun_some]

theorem lexFrom_closing (state : TextState) (rest : List Char) :
    lexFrom (.text state) ('"' :: rest)
      = (lexFrom (.word []) rest).map (.text state.finish :: ·) := by
  rw [lexFrom_text_cons (by decide), if_pos rfl]

/-- A quoted text is one lexeme with what has been quoted. -/
theorem lexes_quote (value : Option String) : Lexes (quote value).toList [.text value] := by
  intro rest
  cases value with
  | none =>
      have quoted : (quote none).toList ++ rest
          = '"' :: '\\' :: 'u' :: 'd' :: '8' :: '0' :: '0' :: '"' :: rest := rfl
      have half : (TextState.start.pushUnit 0xD800).finish = none := rfl
      rw [quoted, lexFrom_opening]
      change lexFrom (.text (TextState.start.pushUnit 0xD800)) ('"' :: rest) = _
      rw [lexFrom_closing, half]
      rfl
  | some text =>
      have quoted : (quote (some text)).toList ++ rest
          = '"' :: (text.toList.flatMap escape ++ '"' :: rest) := by
        simp [quote]
      have whole : (text.toList.foldl TextState.push TextState.start).finish = some text := by
        rw [TextState.start, TextState.foldl_push]
        simp [TextState.finish]
      rw [quoted, lexFrom_opening, lexFrom_escapes, lexFrom_closing, whole]
      rfl

end BridgeMethods.Data.Json
