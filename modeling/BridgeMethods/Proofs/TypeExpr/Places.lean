import BridgeMethods.Proofs.TypeExpr.Tokens

/-!
# Where lexemes stand in a text

A lexeme is spelled by the characters between its two offsets, and the lexemes in front of it are
those of the characters before it.  So the lexemes up to some place do not change when the text is
changed behind it: what starts at an offset is known to be a word or a certain mark from the
character there, and what stops at an offset is known altogether once the next character is.
-/

namespace BridgeMethods

open Text

namespace Symbol

/-- How a symbol is spelled. -/
inductive Spelled : Symbol → List Char → Prop
  | word {chars : List Char} : chars ≠ [] → (∀ c ∈ chars, isIdentifier c) →
      Spelled (.word (String.ofList chars)) chars
  | mark {c : Char} : ¬isSpace c → ¬isIdentifier c → Spelled (.mark c) [c]

/-- Two symbols are the same mark, or both of them are words. -/
def StartsAlike : Symbol → Symbol → Prop
  | .word _, .word _ => True
  | .mark c, .mark d => c = d
  | _, _ => False

variable {symbol other : Symbol} {chars spelling left middle right : List Char}

theorem Spelled.exists_cons (spelled : symbol.Spelled chars) :
    ∃ c rest, chars = c :: rest ∧ ¬isSpace c := by
  cases spelled with
  | word nonempty identifiers =>
      obtain ⟨c, rest, rfl⟩ := List.exists_cons_of_ne_nil nonempty
      refine ⟨c, rest, rfl, ?_⟩
      rw [isSpace_eq_false_of_isIdentifier (identifiers c List.mem_cons_self)]
      exact Bool.false_ne_true
  | mark notSpace _ => exact ⟨_, [], rfl, notSpace⟩

/-- The first character of a symbol tells whether it is a word, and otherwise which mark it is. -/
theorem Spelled.startsAlike {c : Char} {rest otherRest : List Char}
    (spelled : symbol.Spelled (c :: rest)) (otherSpelled : other.Spelled (c :: otherRest)) :
    symbol.StartsAlike other := by
  cases spelled with
  | word _ identifiers =>
      cases otherSpelled with
      | word => trivial
      | mark _ notIdentifier => exact notIdentifier (identifiers c List.mem_cons_self)
  | mark _ notIdentifier =>
      cases otherSpelled with
      | word _ identifiers => exact notIdentifier (identifiers c List.mem_cons_self)
      | mark => rfl

/-- A text that does not start with white space starts with a symbol. -/
theorem exists_spelled {c : Char} (notSpace : ¬isSpace c) (rest : List Char) :
    ∃ symbol spelling after, c :: rest = c :: spelling ++ after ∧
      Spelled symbol (c :: spelling) ∧ Apart (c :: spelling) after := by
  by_cases identifier : isIdentifier c
  · refine ⟨_, rest.takeWhile isIdentifier, rest.dropWhile isIdentifier, ?_,
      .word (List.cons_ne_nil _ _) ?_, ?_⟩
    · rw [List.cons_append, List.takeWhile_append_dropWhile]
    · exact List.forall_mem_cons.mpr ⟨identifier, fun d member => List.mem_takeWhile_imp member⟩
    · rintro a _ b first ⟨_, bIdentifier⟩
      have stops := List.head?_dropWhile_not isIdentifier rest
      rw [Option.mem_def.mp first] at stops
      simp [bIdentifier] at stops
  · refine ⟨_, [], rest, rfl, .mark notSpace identifier, ?_⟩
    exact apart_of_left rfl (by simpa using identifier)

/-- Whether a word runs on depends on the next character only. -/
theorem Apart.congr_head {other : List Char} (apart : Apart left right)
    (head : other.head? = right.head?) : Apart left other := by
  intro a last b first
  exact apart a last b (head ▸ first)

theorem Apart.append (outer : Apart left (middle ++ right)) (inner : Apart middle right) :
    Apart (left ++ middle) right := by
  cases middle with
  | nil => rwa [List.append_nil]
  | cons c rest =>
      intro a last
      apply inner a
      rw [List.getLast?_append, List.getLast?_cons, Option.some_or] at last
      rw [List.getLast?_cons]
      exact last

theorem Apart.of_append (apart : Apart left (middle ++ right)) : Apart left middle := by
  cases middle with
  | nil => exact fun _ _ _ first => nomatch first
  | cons c rest => exact apart.congr_head rfl

theorem apart_of_blank {blank : List Char} (spaces : ∀ c ∈ blank, isSpace c) :
    Apart blank right := by
  intro a last b _ identifiers
  have space := spaces a (List.mem_of_getLast? last)
  rw [isIdentifier_eq_false_of_isSpace space] at identifiers
  exact Bool.false_ne_true identifiers.1

end Symbol

open BridgeMethods.Symbol

namespace Lexeme

variable {chars word left right spelling : List Char} {symbol : Symbol}

theorem scanFrom_word_append (identifiers : ∀ c ∈ word, isIdentifier c)
    (apart : Apart (word.reverse ++ left) right) (offset : Nat) :
    scanFrom offset word (left ++ right) =
      scanFrom offset word left ++ scanFrom (offset + left.length) [] right := by
  induction left generalizing offset word with
  | nil =>
      rw [List.append_nil] at apart
      cases word with
      | nil => rfl
      | cons c passed =>
          have identifier : isIdentifier c := identifiers c List.mem_cons_self
          cases right with
          | nil => simp [scanFrom, ofWord]
          | cons b rest =>
              have mark : ¬isIdentifier b := fun both =>
                apart c (by simp) b rfl ⟨identifier, both⟩
              by_cases space : isSpace b <;> simp [scanFrom, ofWord, mark, space]
  | cons c rest ih =>
      have onward : offset + (c :: rest).length = offset + 1 + rest.length := by
        rw [List.length_cons, Nat.add_comm rest.length, Nat.add_assoc]
      rw [List.cons_append, scanFrom, scanFrom, onward]
      by_cases identifier : isIdentifier c
      · rw [if_pos identifier, if_pos identifier]
        apply ih (List.forall_mem_cons.mpr ⟨identifier, identifiers⟩)
        rwa [List.reverse_cons, List.append_assoc, List.singleton_append]
      · have restApart : Apart ([].reverse ++ rest) right :=
          apart.of_suffix ((List.suffix_cons c rest).trans (List.suffix_append _ _))
        rw [if_neg identifier, if_neg identifier, ih (by simp) restApart]
        split_ifs <;> simp

/-- A text may be scanned in two parts unless it is cut inside a word. -/
theorem scanFrom_append (apart : Apart left right) (offset : Nat) :
    scanFrom offset [] (left ++ right) =
      scanFrom offset [] left ++ scanFrom (offset + left.length) [] right :=
  scanFrom_word_append (List.forall_mem_nil _) apart offset

theorem scanFrom_of_isIdentifier (identifiers : ∀ c ∈ chars, isIdentifier c) (offset : Nat)
    (word : List Char) :
    scanFrom offset word chars = ofWord (offset + chars.length) (chars.reverse ++ word) := by
  induction chars generalizing offset word with
  | nil => rfl
  | cons c rest ih =>
      obtain ⟨first, others⟩ := List.forall_mem_cons.mp identifiers
      rw [scanFrom, if_pos first, ih others, List.reverse_cons, List.append_assoc,
        List.singleton_append, List.length_cons, Nat.add_assoc, Nat.add_comm 1]

/-- What is spelled by the first characters of a text is its first lexeme. -/
theorem scanFrom_spelled (spelled : symbol.Spelled spelling) (apart : Apart spelling right)
    (offset : Nat) :
    scanFrom offset [] (spelling ++ right) =
      ⟨symbol, offset, offset + spelling.length⟩ ::
        scanFrom (offset + spelling.length) [] right := by
  rw [scanFrom_append apart]
  cases spelled with
  | word nonempty identifiers =>
      rw [scanFrom_of_isIdentifier identifiers, List.append_nil]
      obtain ⟨c, rest, reversed⟩ := List.exists_cons_of_ne_nil (List.reverse_ne_nil_iff.mpr nonempty)
      have length_eq : (c :: rest).length = spelling.length := by
        rw [← reversed, List.length_reverse]
      simp only [reversed, ofWord, length_eq, Nat.add_sub_cancel]
      rw [← reversed, List.reverse_reverse]
      rfl
  | mark notSpace notIdentifier => simp [scanFrom, ofWord, notSpace, notIdentifier]

theorem scanFrom_blank {blank : List Char} (spaces : ∀ c ∈ blank, isSpace c) (offset : Nat) :
    scanFrom offset [] blank = [] := by
  induction blank generalizing offset with
  | nil => rfl
  | cons c rest ih =>
      obtain ⟨space, others⟩ := List.forall_mem_cons.mp spaces
      simp [scanFrom, ofWord, isIdentifier_eq_false_of_isSpace space, space, ih others]

/-- A list of characters is cut around a lexeme, which is spelled by the middle part: in front of it
are the lexemes of the first part. -/
structure Stands (offset : Nat) (front : List Lexeme) (lexeme : Lexeme)
    (before spelling after : List Char) : Prop where
  front_eq : scanFrom offset [] before = front
  spelled : lexeme.symbol.Spelled spelling
  start_eq : lexeme.start = offset + before.length
  stop_eq : lexeme.stop = lexeme.start + spelling.length
  apart : Apart before spelling
  after_apart : Apart spelling after

/-- What is scanned up to a lexeme does not depend on what follows it. -/
theorem Stands.scanFrom_eq {offset : Nat} {front : List Lexeme} {lexeme : Lexeme}
    {before after rest : List Char} (stands : Stands offset front lexeme before spelling after)
    (apart : Apart spelling rest) :
    scanFrom offset [] (before ++ (spelling ++ rest)) =
      front ++ lexeme :: scanFrom lexeme.stop [] rest := by
  obtain ⟨c, others, rfl, _⟩ := stands.spelled.exists_cons
  rcases lexeme with ⟨symbol, start, stop⟩
  obtain rfl : start = offset + before.length := stands.start_eq
  obtain rfl : stop = offset + before.length + (c :: others).length := stands.stop_eq
  have headApart : Apart before (c :: others ++ rest) := stands.apart.congr_head rfl
  rw [scanFrom_append headApart, stands.front_eq, scanFrom_spelled stands.spelled apart]

/-- The first lexeme of a text stands behind nothing but white space. -/
theorem exists_first {offset : Nat} {lexeme : Lexeme} {back : List Lexeme}
    (scanned : scanFrom offset [] chars = lexeme :: back) :
    ∃ blank spelling after, chars = blank ++ (spelling ++ after) ∧ (∀ c ∈ blank, isSpace c) ∧
      Stands offset [] lexeme blank spelling after ∧ scanFrom lexeme.stop [] after = back := by
  induction chars generalizing offset with
  | nil => cases scanned
  | cons c rest ih =>
      by_cases space : isSpace c
      · have behind : scanFrom (offset + 1) [] rest = lexeme :: back := by
          rw [← scanned, scanFrom,
            if_neg (by simp [isIdentifier_eq_false_of_isSpace space]), if_pos space]
          rfl
        obtain ⟨blank, spelling, after, rfl, spaces, stands, scannedBack⟩ := ih behind
        have moreSpaces : ∀ d ∈ c :: blank, isSpace d := List.forall_mem_cons.mpr ⟨space, spaces⟩
        refine ⟨c :: blank, spelling, after, rfl, moreSpaces, ?_, scannedBack⟩
        exact {
          front_eq := scanFrom_blank moreSpaces offset
          spelled := stands.spelled
          start_eq := by
            rw [stands.start_eq, List.length_cons, Nat.add_assoc, Nat.add_comm 1]
          stop_eq := stands.stop_eq
          apart := apart_of_blank moreSpaces
          after_apart := stands.after_apart }
      · obtain ⟨symbol, spelling, after, split, spelled, apart⟩ := exists_spelled space rest
        rw [split, scanFrom_spelled spelled apart] at scanned
        cases scanned
        exact ⟨[], c :: spelling, after, split, by simp,
          ⟨rfl, spelled, rfl, rfl, apart_of_blank (by simp), apart⟩, rfl⟩

/-- Every lexeme of a text stands somewhere in it. -/
theorem exists_stands {offset : Nat} {front back : List Lexeme} {lexeme : Lexeme}
    (scanned : scanFrom offset [] chars = front ++ lexeme :: back) :
    ∃ before spelling after, chars = before ++ (spelling ++ after) ∧
      Stands offset front lexeme before spelling after := by
  induction front generalizing offset chars with
  | nil =>
      obtain ⟨blank, spelling, after, split, _, stands, _⟩ := exists_first scanned
      exact ⟨blank, spelling, after, split, stands⟩
  | cons first front ih =>
      obtain ⟨blank, spelling, rest, rfl, spaces, firstStands, scannedRest⟩ := exists_first scanned
      obtain ⟨between, otherSpelling, after, rfl, stands⟩ := ih scannedRest
      have betweenApart : Apart spelling (between ++ otherSpelling) := by
        have apart := firstStands.after_apart
        rw [← List.append_assoc] at apart
        exact apart.of_append
      refine ⟨blank ++ (spelling ++ between), otherSpelling, after, by simp, ?_⟩
      exact {
        front_eq := by
          rw [firstStands.scanFrom_eq betweenApart.of_append, stands.front_eq, List.nil_append]
        spelled := stands.spelled
        start_eq := by
          rw [stands.start_eq, firstStands.stop_eq, firstStands.start_eq]
          simp only [List.length_append, Nat.add_assoc]
        stop_eq := stands.stop_eq
        apart := (apart_of_blank spaces).append (betweenApart.append stands.apart)
        after_apart := stands.after_apart }

/-! ## Texts that agree up to a place -/

theorem exists_eq_of_take_eq {other before rest : List Char} {c : Char}
    (agree : other.take (before.length + 1) = (before ++ c :: rest).take (before.length + 1)) :
    ∃ otherRest, other = before ++ c :: otherRest := by
  refine ⟨other.drop (before.length + 1), ?_⟩
  have front : (before ++ c :: rest).take (before.length + 1) = before ++ [c] := by
    rw [List.take_length_add_append]
    rfl
  calc
    other = other.take (before.length + 1) ++ other.drop (before.length + 1) :=
      (List.take_append_drop _ _).symm
    _ = before ++ c :: other.drop (before.length + 1) := by
      rw [agree, front, List.append_assoc, List.singleton_append]

/-- A text that agrees with another one up to the first character of a lexeme has a lexeme there
that starts alike, and the same lexemes in front of it. -/
theorem Stands.exists_of_agree_start {front : List Lexeme} {lexeme : Lexeme}
    {before after other : List Char} (stands : Stands 0 front lexeme before spelling after)
    (agree : other.take (lexeme.start + 1) =
      (before ++ (spelling ++ after)).take (lexeme.start + 1)) :
    ∃ otherLexeme back, scanFrom 0 [] other = front ++ otherLexeme :: back ∧
      otherLexeme.start = lexeme.start ∧
      lexeme.symbol.StartsAlike otherLexeme.symbol := by
  obtain ⟨c, spellingRest, rfl, notSpace⟩ := stands.spelled.exists_cons
  rw [stands.start_eq, Nat.zero_add] at agree ⊢
  obtain ⟨otherRest, rfl⟩ := exists_eq_of_take_eq agree
  obtain ⟨symbol, otherSpelling, otherAfter, split, spelled, apart⟩ :=
    exists_spelled notSpace otherRest
  have headApart : Apart before (c :: otherSpelling ++ otherAfter) := stands.apart.congr_head rfl
  rw [split, scanFrom_append headApart, stands.front_eq, scanFrom_spelled spelled apart,
    Nat.zero_add]
  exact ⟨_, _, rfl, rfl, stands.spelled.startsAlike spelled⟩

/-- A text that agrees with another one up to the character behind a lexeme has the same lexeme. -/
theorem Stands.exists_of_agree_stop {front : List Lexeme} {lexeme : Lexeme}
    {before after other : List Char} (stands : Stands 0 front lexeme before spelling after)
    (nonempty : after ≠ [])
    (agree : other.take (lexeme.stop + 1) =
      (before ++ (spelling ++ after)).take (lexeme.stop + 1)) :
    ∃ back, scanFrom 0 [] other = front ++ lexeme :: back := by
  obtain ⟨c, rest, rfl⟩ := List.exists_cons_of_ne_nil nonempty
  have stop_eq : lexeme.stop = (before ++ spelling).length := by
    rw [stands.stop_eq, stands.start_eq, Nat.zero_add, List.length_append]
  rw [stop_eq, ← List.append_assoc] at agree
  obtain ⟨otherRest, rfl⟩ := exists_eq_of_take_eq agree
  have apart : Apart spelling (c :: otherRest) := stands.after_apart.congr_head rfl
  rw [List.append_assoc, stands.scanFrom_eq apart]
  exact ⟨_, rfl⟩

end Lexeme

end BridgeMethods
