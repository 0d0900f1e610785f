import BridgeMethods.MethodSort
import BridgeMethods.Proofs.Lookup
import Mathlib.Data.List.TakeWhile
import Mathlib.Tactic.SplitIfs

/-!
# Spellings of sort names

The name of a sort may be written in any case, with underscores for hyphens and with white space
around it.  `Text.Respelled` says when two texts differ in nothing else; such texts denote the same
sort, or none.
-/

namespace BridgeMethods

namespace Text

/-- Two characters are the same but for the case of an ASCII letter, or each is a hyphen or an
underscore. -/
def SameLetter (c d : Char) : Prop :=
  c.toLower = d.toLower ∨ (c = '-' ∨ c = '_') ∧ (d = '-' ∨ d = '_')

/-- A text consists of some characters with white space around them. -/
def Surrounds (text : String) (core : List Char) : Prop :=
  ∃ left right, (∀ c ∈ left, isSpace c) ∧ (∀ c ∈ right, isSpace c) ∧
    text.toList = left ++ core ++ right

/-- Two texts differ at most in the white space around them, in the case of letters, and in hyphens
that are underscores in the other one. -/
def Respelled (text other : String) : Prop :=
  ∃ core otherCore, Surrounds text core ∧ Surrounds other otherCore ∧
    List.Forall₂ SameLetter core otherCore

/-- Characters without the white space at their two ends. -/
def strip (chars : List Char) : List Char :=
  ((chars.dropWhile isSpace).reverse.dropWhile isSpace).reverse

theorem strip_surrounded {left core right : List Char} (leftSpaces : ∀ c ∈ left, isSpace c)
    (rightSpaces : ∀ c ∈ right, isSpace c) : strip (left ++ core ++ right) = strip core := by
  have rightBlank : right.dropWhile isSpace = [] := List.dropWhile_eq_nil_iff.mpr rightSpaces
  rw [strip, strip, List.append_assoc, List.dropWhile_append_of_pos leftSpaces,
    List.dropWhile_append]
  split_ifs with blank
  · rw [rightBlank, List.isEmpty_iff.mp blank]
  · rw [List.reverse_append, List.dropWhile_append_of_pos]
    exact fun c member => rightSpaces c (List.mem_reverse.mp member)

end Text

open Text

namespace MethodSort

/-- The form in which a character of a name is compared. -/
def letter (c : Char) : Char :=
  if c.toLower = '_' then '-' else c.toLower

theorem letter_eq_of_sameLetter {c d : Char} (same : SameLetter c d) : letter c = letter d := by
  rcases same with same | ⟨rfl | rfl, rfl | rfl⟩
  · rw [letter, letter, same]
  all_goals rfl

theorem isSpace_letter (c : Char) : isSpace (letter c) = isSpace c := by
  by_cases capital : c.val ≥ 'A'.val ∧ c.val ≤ 'Z'.val
  · have all : ∀ n < 91, 65 ≤ n → isSpace (letter (Char.ofNat n)) = isSpace (Char.ofNat n) := by
      decide +kernel
    rw [← Char.ofNat_toNat c]
    exact all c.toNat (Nat.lt_succ_of_le capital.2) capital.1
  · have same : c.toLower = c := dif_neg capital
    rw [letter, same]
    split_ifs with underscore
    · rw [underscore]
      decide
    · rfl

theorem normalize_eq (text : String) :
    normalize text = String.ofList (strip (text.toList.map letter)) := by
  have isSpace_comp : isSpace ∘ letter = isSpace := funext isSpace_letter
  rw [normalize, lowerAscii, trim, String.toList_ofList, String.toList_ofList, List.map_map,
    strip, List.dropWhile_map, isSpace_comp, ← List.map_reverse, List.dropWhile_map, isSpace_comp,
    ← List.map_reverse]
  rfl

theorem normalize_of_surrounds {text : String} {core : List Char} (surrounds : Surrounds text core) :
    normalize text = String.ofList (strip (core.map letter)) := by
  obtain ⟨left, right, leftSpaces, rightSpaces, split⟩ := surrounds
  rw [normalize_eq, split, List.map_append, List.map_append, strip_surrounded]
  · simpa [isSpace_letter] using leftSpaces
  · simpa [isSpace_letter] using rightSpaces

theorem normalize_eq_of_respelled {text other : String} (respelled : Respelled text other) :
    normalize text = normalize other := by
  obtain ⟨core, otherCore, surrounds, otherSurrounds, same⟩ := respelled
  have letters : core.map letter = otherCore.map letter :=
    same.map_eq_map fun _ _ => letter_eq_of_sameLetter
  rw [normalize_of_surrounds surrounds, normalize_of_surrounds otherSurrounds, letters]

theorem name_injective {s other : MethodSort} (same : s.name = other.name) : s = other := by
  have found := find?_name s
  rw [same, find?_name] at found
  exact (Option.some.inj found).symm

/-- A text denotes the sort whose name it is when it is normalized. -/
theorem parse_eq_ok_iff {text : String} {s : MethodSort} :
    parse text = .ok s ↔ normalize text = s.name := by
  unfold parse
  cases found : all.find? (·.name = normalize text) with
  | none =>
      refine iff_of_false nofun fun named => ?_
      rw [named, find?_name] at found
      contradiction
  | some other =>
      have named : other.name = normalize text := by simpa using List.find?_some found
      rw [← named]
      exact ⟨fun same => congrArg name (Except.ok.inj same),
        fun same => congrArg Except.ok (name_injective same)⟩

theorem parse_eq_ok_congr {text other : String} (respelled : Respelled text other)
    {s : MethodSort} : parse text = .ok s ↔ parse other = .ok s := by
  rw [parse_eq_ok_iff, parse_eq_ok_iff, normalize_eq_of_respelled respelled]

end MethodSort

end BridgeMethods
