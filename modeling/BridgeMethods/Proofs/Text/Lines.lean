import BridgeMethods.Text.CharClass
import Mathlib.Data.List.Basic

/-!
# Lines of a text

A text is cut at its line breaks.  Texts that are put together from lines, each with a line break
behind it, are cut into just these lines again, as long as no line has a line break in it.
-/

namespace BridgeMethods.Text

/-- The parts of a text between its line breaks.  If the text ends with one, the last part is
empty. -/
def lines (text : String) : List String :=
  (text.toList.splitOn '\n').map String.ofList

/-- A text without line breaks. -/
def OneLine (text : String) : Prop := '\n' ∉ text.toList

instance (text : String) : Decidable (OneLine text) :=
  inferInstanceAs (Decidable ('\n' ∉ text.toList))

theorem not_mem_append {c : Char} {left right : String} (first : c ∉ left.toList)
    (second : c ∉ right.toList) : c ∉ (left ++ right).toList := by
  rw [String.toList_append, List.mem_append, not_or]
  exact ⟨first, second⟩

theorem not_mem_join {c : Char} {texts : List String} (each : ∀ text ∈ texts, c ∉ text.toList) :
    c ∉ (String.join texts).toList := by
  simpa [String.toList_join] using each

theorem not_mem_padRight {c : Char} (notSpace : c ≠ ' ') (width : Nat) {text : String}
    (fresh : c ∉ text.toList) : c ∉ (padRight width text).toList := by
  refine not_mem_append fresh ?_
  rw [String.toList_ofList]
  exact fun padded => notSpace (List.eq_of_mem_replicate padded)

theorem not_mem_toString {c : Char} (notDigit : c.isDigit = false) (n : Nat) :
    c ∉ (toString n).toList := by
  intro member
  have digit : c ∈ Nat.toDigits 10 n := by simpa [Nat.repr] using member
  have isDigit := Nat.isDigit_of_mem_toDigits (by decide) (by decide) digit
  rw [notDigit] at isDigit
  contradiction

namespace OneLine

theorem append {left right : String} (first : OneLine left) (second : OneLine right) :
    OneLine (left ++ right) :=
  not_mem_append first second

theorem join {texts : List String} (each : ∀ text ∈ texts, OneLine text) :
    OneLine (String.join texts) :=
  not_mem_join each

end OneLine

theorem lines_line_append {line : String} (oneLine : OneLine line) (rest : String) :
    lines (line ++ "\n" ++ rest) = line :: lines rest := by
  have cut : (line ++ "\n" ++ rest).toList = line.toList ++ '\n' :: rest.toList := by simp
  have noBreak : ∀ c ∈ line.toList, (c == '\n') = false :=
    fun c member => beq_false_of_ne fun same => oneLine (same ▸ member)
  rw [lines, cut, List.splitOn,
    List.splitOnP_append_cons_of_forall_mem noBreak '\n' (beq_self_eq_true '\n'),
    List.map_cons, String.ofList_toList]
  rfl

/-- A text is made of lines, whatever comes after it. -/
def MadeOf (text : String) (contents : List String) : Prop :=
  ∀ rest, lines (text ++ rest) = contents ++ lines rest

namespace MadeOf

theorem nil : MadeOf "" [] := by
  intro rest
  rw [String.empty_append, List.nil_append]

theorem line {text : String} (oneLine : OneLine text) : MadeOf (text ++ "\n") [text] :=
  lines_line_append oneLine

theorem lineBreak : MadeOf "\n" [""] := by
  intro rest
  have emptyLine : OneLine "" := by decide
  have cut := lines_line_append emptyLine rest
  rwa [String.empty_append] at cut

theorem append {left right : String} {lefts rights : List String} (first : MadeOf left lefts)
    (second : MadeOf right rights) : MadeOf (left ++ right) (lefts ++ rights) := by
  intro rest
  rw [String.append_assoc, first, second, List.append_assoc]

theorem join {α : Type} {text content : α → String} {entries : List α}
    (each : ∀ entry ∈ entries, MadeOf (text entry) [content entry]) :
    MadeOf (String.join (entries.map text)) (entries.map content) := by
  induction entries with
  | nil => exact nil
  | cons entry entries ih =>
      obtain ⟨first, others⟩ := List.forall_mem_cons.mp each
      rw [List.map_cons, List.map_cons, String.join_cons]
      exact first.append (ih others)

/-- The whole text has no other lines, and it ends with a line break. -/
theorem lines_eq {text : String} {contents : List String} (madeOf : MadeOf text contents) :
    lines text = contents ++ [""] := by
  have whole := madeOf ""
  rwa [String.append_empty] at whole

end MadeOf

end BridgeMethods.Text
