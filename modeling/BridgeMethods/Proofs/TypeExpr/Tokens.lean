import BridgeMethods.TypeExpr.Lexeme
import Mathlib.Data.List.TakeWhile

/-!
# The tokens of a text

White space is dropped, a maximal run of identifier characters is a word, and every other
character is a mark by itself.  The scanner of lexemes passes over a text once and keeps the part
of a word already passed; here the same cut is written down without a scanner.  The two agree, so
that facts on the symbols of a text are facts on its characters.

The main tool is `Symbol.ofChars_append`: a text may be cut anywhere but inside a word.
-/

namespace BridgeMethods

namespace Text

/-- Whether a text can be the name of a type: a run of identifier characters that is not empty. -/
def IsName (text : String) : Prop :=
  text.toList ≠ [] ∧ ∀ c ∈ text.toList, isIdentifier c

instance : DecidablePred IsName := fun text =>
  decidable_of_iff (text.toList.isEmpty = false ∧ text.toList.all isIdentifier = true)
    (by simp [IsName])

/-- No character is both white space and part of a name. -/
theorem isIdentifier_eq_false_of_isSpace {c : Char} (space : isSpace c) :
    isIdentifier c = false := by
  have blank : ∀ n ∈ whiteSpace, isIdentifier (Char.ofNat n) = false := by decide +kernel
  rw [← Char.ofNat_toNat c]
  exact blank c.toNat (by simpa [isSpace] using space)

theorem isSpace_eq_false_of_isIdentifier {c : Char} (identifier : isIdentifier c) :
    isSpace c = false := by
  by_contra space
  rw [isIdentifier_eq_false_of_isSpace (by simpa using space)] at identifier
  contradiction

end Text

open Text

namespace Symbol

/-- The tokens of a list of characters. -/
def ofChars : List Char → List Symbol
  | [] => []
  | c :: rest =>
      if isSpace c then ofChars rest
      else if isIdentifier c then
        .word (String.ofList (c :: rest.takeWhile isIdentifier)) ::
          ofChars (rest.dropWhile isIdentifier)
      else .mark c :: ofChars rest
termination_by chars => chars.length
decreasing_by
  · simp
  · exact Nat.lt_succ_of_le (List.dropWhile_sublist _).length_le
  · simp

/-- The tokens of a text. -/
def tokens (text : String) : List Symbol :=
  ofChars text.toList

@[simp]
theorem ofChars_nil : ofChars [] = [] := by
  rw [ofChars]

theorem ofChars_cons_of_isSpace {c : Char} (space : isSpace c) (rest : List Char) :
    ofChars (c :: rest) = ofChars rest := by
  rw [ofChars, if_pos space]

theorem ofChars_cons_of_mark {c : Char} (space : ¬isSpace c) (identifier : ¬isIdentifier c)
    (rest : List Char) : ofChars (c :: rest) = .mark c :: ofChars rest := by
  rw [ofChars, if_neg space, if_neg identifier]

theorem ofChars_cons_of_isIdentifier {c : Char} (identifier : isIdentifier c)
    (rest : List Char) :
    ofChars (c :: rest) =
      .word (String.ofList (c :: rest.takeWhile isIdentifier)) ::
        ofChars (rest.dropWhile isIdentifier) := by
  rw [ofChars, if_neg (by simp [isSpace_eq_false_of_isIdentifier identifier]),
    if_pos identifier]

/-- A run of identifier characters is one word. -/
theorem ofChars_word {word : List Char} (nonempty : word ≠ [])
    (identifiers : ∀ c ∈ word, isIdentifier c) :
    ofChars word = [.word (String.ofList word)] := by
  cases word with
  | nil => contradiction
  | cons c rest =>
      have restIdentifiers : ∀ d ∈ rest, isIdentifier d := fun d member =>
        identifiers d (List.mem_cons_of_mem c member)
      rw [ofChars_cons_of_isIdentifier (identifiers c List.mem_cons_self),
        List.takeWhile_eq_self_iff.mpr restIdentifiers,
        List.dropWhile_eq_nil_iff.mpr restIdentifiers, ofChars_nil]

/-- The tokens of white space. -/
theorem ofChars_blank {blank : List Char} (spaces : ∀ c ∈ blank, isSpace c) :
    ofChars blank = [] := by
  induction blank with
  | nil => exact ofChars_nil
  | cons c rest ih =>
      rw [ofChars_cons_of_isSpace (spaces c List.mem_cons_self)]
      exact ih fun d member => spaces d (List.mem_cons_of_mem c member)

/-- No word runs over the place where one list of characters ends and the other starts. -/
def Apart (left right : List Char) : Prop :=
  ∀ a ∈ left.getLast?, ∀ b ∈ right.head?, ¬(isIdentifier a ∧ isIdentifier b)

instance (left right : List Char) : Decidable (Apart left right) :=
  decidable_of_iff (left.getLast?.all fun a => right.head?.all fun b =>
    !(isIdentifier a && isIdentifier b)) (by simp [Apart, Option.all_eq_true, imp_iff_not_or])

theorem Apart.of_suffix {left rest right : List Char} (apart : Apart left right)
    (isSuffix : rest <:+ left) : Apart rest right := by
  intro a lastRest b headRight
  refine apart a ?_ b headRight
  rcases isSuffix with ⟨front, rfl⟩
  rw [Option.mem_def] at lastRest ⊢
  rw [List.getLast?_append, lastRest, Option.some_or]

theorem apart_of_right {left right : List Char} {b : Char} (head : right.head? = some b)
    (mark : isIdentifier b = false) : Apart left right := by
  intro a _ c headRight both
  rw [Option.mem_def, head, Option.some.injEq] at headRight
  subst c
  rw [mark] at both
  exact Bool.false_ne_true both.2

theorem apart_of_left {left right : List Char} {a : Char} (last : left.getLast? = some a)
    (mark : isIdentifier a = false) : Apart left right := by
  intro c lastLeft b _ both
  rw [Option.mem_def, last, Option.some.injEq] at lastLeft
  subst c
  rw [mark] at both
  exact Bool.false_ne_true both.1

/-- A text may be cut anywhere but inside a word. -/
theorem ofChars_append {left right : List Char} (apart : Apart left right) :
    ofChars (left ++ right) = ofChars left ++ ofChars right := by
  fun_induction ofChars left with
  | case1 => rfl
  | case2 c rest space ih =>
      rw [List.cons_append, ofChars_cons_of_isSpace space]
      exact ih (apart.of_suffix (List.suffix_cons c rest))
  | case3 c rest space identifier ih =>
      rw [List.cons_append, ofChars_cons_of_isIdentifier identifier, List.takeWhile_append,
        List.dropWhile_append]
      by_cases whole : ∀ d ∈ rest, isIdentifier d
      · -- The word ends with the left part: the right part starts with no identifier character.
        have takeRest := List.takeWhile_eq_self_iff.mpr whole
        have dropRest := List.dropWhile_eq_nil_iff.mpr whole
        obtain ⟨last, lastEq⟩ : ∃ last, (c :: rest).getLast? = some last :=
          ⟨_, List.getLast?_eq_some_getLast (List.cons_ne_nil c rest)⟩
        have lastIdentifier : isIdentifier last := by
          rcases List.mem_cons.mp (List.mem_of_getLast? lastEq) with rfl | member
          · exact identifier
          · exact whole last member
        have stop : right.takeWhile isIdentifier = [] ∧
            right.dropWhile isIdentifier = right := by
          cases right with
          | nil => exact ⟨rfl, rfl⟩
          | cons b right =>
              have mark : ¬isIdentifier b := fun both =>
                apart last lastEq b rfl ⟨lastIdentifier, both⟩
              simp [mark]
        simp [takeRest, dropRest, stop.1, stop.2]
      · have notNil : rest.dropWhile isIdentifier ≠ [] := fun isNil =>
          whole (List.dropWhile_eq_nil_iff.mp isNil)
        have notWhole : (rest.takeWhile isIdentifier).length ≠ rest.length := by
          intro sameLength
          apply whole
          exact List.takeWhile_eq_self_iff.mp
            ((List.takeWhile_prefix isIdentifier).eq_of_length sameLength)
        rw [if_neg notWhole, if_neg (by simpa using notNil), List.cons_append,
          ih (apart.of_suffix ((List.dropWhile_suffix _).trans (List.suffix_cons c rest)))]
  | case4 c rest space identifier ih =>
      rw [List.cons_append, ofChars_cons_of_mark space identifier, List.cons_append,
        ih (apart.of_suffix (List.suffix_cons c rest))]

/-- White space between two texts that no word joins is as good as none. -/
theorem ofChars_append_blank {left blank right : List Char}
    (spaces : ∀ c ∈ blank, isSpace c) (apart : Apart left right) :
    ofChars (left ++ (blank ++ right)) = ofChars (left ++ right) := by
  cases blank with
  | nil => rfl
  | cons c rest =>
      have leftApart : Apart left (c :: rest ++ right) :=
        apart_of_right rfl (isIdentifier_eq_false_of_isSpace (spaces c List.mem_cons_self))
      have blankApart : Apart (c :: rest) right := by
        have lastEq := List.getLast?_eq_some_getLast (List.cons_ne_nil c rest)
        exact apart_of_left lastEq
          (isIdentifier_eq_false_of_isSpace (spaces _ (List.mem_of_getLast? lastEq)))
      rw [ofChars_append leftApart, ofChars_append blankApart, ofChars_blank spaces,
        List.nil_append, ofChars_append apart]

/-- Whether a symbol can stand in a text: a word is a name. -/
def IsLexical : Symbol → Prop
  | .word text => IsName text
  | .mark _ => True

theorem isLexical_of_mem_ofChars {chars : List Char} {symbol : Symbol}
    (member : symbol ∈ ofChars chars) : symbol.IsLexical := by
  fun_induction ofChars chars with
  | case1 => contradiction
  | case2 c rest space ih => exact ih member
  | case3 c rest space identifier ih =>
      rcases List.mem_cons.mp member with rfl | member
      · constructor
        · simp
        · intro d letter
          rw [String.toList_ofList] at letter
          rcases List.mem_cons.mp letter with rfl | letter
          · exact identifier
          · exact List.mem_takeWhile_imp letter
      · exact ih member
  | case4 c rest space identifier ih =>
      rcases List.mem_cons.mp member with rfl | member
      · trivial
      · exact ih member

end Symbol

namespace Lexeme

/-- The scanner cuts the characters that it has passed of a word and those to come. -/
theorem map_symbol_scanFrom {word : List Char} (identifiers : ∀ c ∈ word, isIdentifier c)
    (offset : Nat) (chars : List Char) :
    (scanFrom offset word chars).map (·.symbol) = Symbol.ofChars (word.reverse ++ chars) := by
  have wordSymbols (stop : Nat) {word : List Char} (identifiers : ∀ c ∈ word, isIdentifier c) :
      (ofWord stop word).map (·.symbol) = Symbol.ofChars word.reverse := by
    cases word with
    | nil => exact Symbol.ofChars_nil.symm
    | cons c rest =>
        rw [Symbol.ofChars_word (by simp) fun d member =>
          identifiers d (List.mem_reverse.mp member)]
        rfl
  induction chars generalizing offset word with
  | nil => rw [scanFrom, wordSymbols offset identifiers, List.append_nil]
  | cons c rest ih =>
      rw [scanFrom]
      by_cases identifier : isIdentifier c
      · have longer : ∀ d ∈ c :: word, isIdentifier d :=
          List.forall_mem_cons.mpr ⟨identifier, identifiers⟩
        rw [if_pos identifier, ih longer, List.reverse_cons, List.append_assoc,
          List.singleton_append]
      · have cut : Symbol.Apart word.reverse (c :: rest) :=
          Symbol.apart_of_right rfl (by simpa using identifier)
        rw [if_neg identifier, Symbol.ofChars_append cut]
        by_cases space : isSpace c
        · rw [if_pos space, List.map_append, wordSymbols offset identifiers,
            ih (by simp), Symbol.ofChars_cons_of_isSpace space, List.reverse_nil,
            List.nil_append]
        · rw [if_neg space, List.map_append, wordSymbols offset identifiers, List.map_cons,
            ih (by simp), Symbol.ofChars_cons_of_mark space identifier, List.reverse_nil,
            List.nil_append]

/-- The symbols that the scanner finds are the tokens of the text. -/
theorem symbols_eq_tokens (text : String) : symbols text = Symbol.tokens text :=
  map_symbol_scanFrom (by simp) 0 text.toList

theorem isLexical_of_mem_scan {text : String} {lexeme : Lexeme} (member : lexeme ∈ scan text) :
    lexeme.symbol.IsLexical := by
  have symbolMember : lexeme.symbol ∈ Symbol.tokens text := by
    rw [← symbols_eq_tokens]
    exact List.mem_map_of_mem member
  exact Symbol.isLexical_of_mem_ofChars symbolMember

end Lexeme

end BridgeMethods
