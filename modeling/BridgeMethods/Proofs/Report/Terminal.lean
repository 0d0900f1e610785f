import BridgeMethods.Proofs.Text.Lines
import BridgeMethods.Report.Terminal

/-!
# Colour adds escape sequences only

A text with escape sequences shows as the text that is left when they are deleted.  Showing as
something is compatible with putting texts one after another, so that a coloured report shows as
the plain one because each painted piece of it shows as the piece that is painted.
-/

namespace BridgeMethods

/-! ## Escape sequences -/

namespace Escape

/-- A character between the start and the end of an escape or control sequence. -/
def isIntermediate (c : Char) : Bool := 0x20 ≤ c.toNat && c.toNat ≤ 0x2F

/-- A character of the parameters of a control sequence. -/
def isParameter (c : Char) : Bool := 0x30 ≤ c.toNat && c.toNat ≤ 0x3F

/-- The last character of an escape sequence. -/
def isEscapeEnd (c : Char) : Bool := 0x30 ≤ c.toNat && c.toNat ≤ 0x7E

/-- The last character of a control sequence. -/
def isControlEnd (c : Char) : Bool := 0x40 ≤ c.toNat && c.toNat ≤ 0x7E

/-- The number of characters of the sequence that a text starts with, and zero if it starts with
none.  An escape sequence consists of the escape character, intermediate characters and an end.  If
an opening bracket follows the escape character, it is a control sequence, with parameters before
the intermediate characters. -/
def sequenceLength : List Char → Nat
  | '\x1b' :: '[' :: rest =>
      let parameters := (rest.takeWhile isParameter).length
      let intermediates := ((rest.drop parameters).takeWhile isIntermediate).length
      let body := parameters + intermediates
      if (rest[body]?).any isControlEnd then body + 3 else 0
  | '\x1b' :: rest =>
      let intermediates := (rest.takeWhile isIntermediate).length
      if (rest[intermediates]?).any isEscapeEnd then intermediates + 2 else 0
  | _ => 0

/-- A text without a number of characters in front and without the sequences after them. -/
def deleteFrom : Nat → List Char → List Char
  | _, [] => []
  | skipped + 1, _ :: rest => deleteFrom skipped rest
  | 0, c :: rest =>
      match sequenceLength (c :: rest) with
      | 0 => c :: deleteFrom 0 rest
      | length + 1 => deleteFrom length rest

/-- A text without its escape and control sequences. -/
def delete (text : String) : String :=
  String.ofList (deleteFrom 0 text.toList)

/-- A text without the escape character, and so without any sequence. -/
def Free (text : String) : Prop := '\x1b' ∉ text.toList

instance (text : String) : Decidable (Free text) :=
  inferInstanceAs (Decidable ('\x1b' ∉ text.toList))

theorem sequenceLength_of_ne {c : Char} (noEscape : c ≠ '\x1b') (rest : List Char) :
    sequenceLength (c :: rest) = 0 := by
  unfold sequenceLength
  split
  · simp_all
  · simp_all
  · rfl

theorem deleteFrom_append_of_not_mem {text : List Char} (free : '\x1b' ∉ text)
    (rest : List Char) : deleteFrom 0 (text ++ rest) = text ++ deleteFrom 0 rest := by
  induction text with
  | nil => rfl
  | cons c text ih =>
      rw [List.mem_cons, not_or] at free
      obtain ⟨noEscape, others⟩ := free
      rw [List.cons_append, deleteFrom, sequenceLength_of_ne (Ne.symm noEscape)]
      exact congrArg (c :: ·) (ih others)

theorem deleteFrom_sequence (style : TextStyle) (rest : List Char) :
    deleteFrom 0 (style.sequence ++ rest) = deleteFrom 0 rest := by
  cases style <;> rfl

theorem deleteFrom_styleReset (rest : List Char) :
    deleteFrom 0 (styleReset ++ rest) = deleteFrom 0 rest := rfl

/-! ## Showing as a text -/

/-- A text shows as another one: the other has no sequences, and it is left when those of the first
are deleted, whatever comes after the two. -/
structure ShowsAs (coloured plain : String) : Prop where
  deleted : ∀ rest, deleteFrom 0 (coloured.toList ++ rest) = plain.toList ++ deleteFrom 0 rest
  free : Free plain

namespace ShowsAs

theorem of_free {text : String} (free : Free text) : ShowsAs text text :=
  ⟨deleteFrom_append_of_not_mem free, free⟩

theorem append {coloured plain colouredNext plainNext : String} (first : ShowsAs coloured plain)
    (second : ShowsAs colouredNext plainNext) :
    ShowsAs (coloured ++ colouredNext) (plain ++ plainNext) where
  deleted rest := by
    simp only [String.toList_append, List.append_assoc, first.deleted, second.deleted]
  free := Text.not_mem_append first.free second.free

theorem append_free {coloured plain text : String} (shows : ShowsAs coloured plain)
    (free : Free text) : ShowsAs (coloured ++ text) (plain ++ text) :=
  shows.append (of_free free)

theorem delete_eq {coloured plain : String} (shows : ShowsAs coloured plain) :
    delete coloured = plain := by
  have deleted := shows.deleted []
  rw [List.append_nil, deleteFrom, List.append_nil] at deleted
  rw [delete, deleted, String.ofList_toList]

theorem joinWith {α : Type} {coloured plain : α → String} {separator : String}
    (free : Free separator) {entries : List α}
    (each : ∀ entry ∈ entries, ShowsAs (coloured entry) (plain entry)) :
    ShowsAs (Text.joinWith separator (entries.map coloured))
      (Text.joinWith separator (entries.map plain)) := by
  induction entries with
  | nil => exact of_free (by simp [Free, Text.joinWith])
  | cons entry entries ih =>
      obtain ⟨first, others⟩ := List.forall_mem_cons.mp each
      cases entries with
      | nil => exact first
      | cons second entries => exact (first.append_free free).append (ih others)

end ShowsAs

theorem Free.append {left right : String} (first : Free left) (second : Free right) :
    Free (left ++ right) :=
  Text.not_mem_append first second

theorem Free.join {texts : List String} (each : ∀ text ∈ texts, Free text) :
    Free (String.join texts) :=
  Text.not_mem_join each

theorem free_padRight (width : Nat) {text : String} (free : Free text) :
    Free (Text.padRight width text) :=
  Text.not_mem_padRight (by decide) width free

theorem free_toString (n : Nat) : Free (toString n) :=
  Text.not_mem_toString (by decide) n

theorem reapply_of_not_mem {text : List Char} (free : '\x1b' ∉ text) (on : List Char) :
    TextStyle.reapply on text = text := by
  induction text with
  | nil => rfl
  | cons c text ih =>
      rw [List.mem_cons, not_or] at free
      obtain ⟨noEscape, others⟩ := free
      rw [TextStyle.reapply, ih others]
      rintro _ rfl
      contradiction

/-- A painted text shows as the text. -/
theorem showsAs_paint (style : TextStyle) {text : String} (free : Free text) :
    ShowsAs (style.paint true text) (style.paint false text) where
  deleted rest := by
    have painted : (style.paint true text).toList ++ rest
        = style.sequence ++ (text.toList ++ (styleReset ++ rest)) := by
      simp [TextStyle.paint, reapply_of_not_mem free]
    rw [painted, deleteFrom_sequence, deleteFrom_append_of_not_mem free, deleteFrom_styleReset]
    rfl
  free := free

end Escape

open Escape

theorem Modifier.free_name (m : Modifier) : Free m.name := by
  cases m <;> decide

theorem MethodSort.free_name (s : MethodSort) : Free s.name := by
  cases s <;> decide

/-- The texts of a report have no escape characters. -/
structure MethodReport.IsFree (report : MethodReport) : Prop where
  typeName : Free report.typeName
  signature : Free report.signature

namespace Report

theorem showsAs_header : ShowsAs (header true) (header false) := by
  have title : Free "Method Sort Report" := by decide
  have rule : Free "==================" := by decide
  have lineBreak : Free "\n" := by decide
  have emptyLine : Free "\n\n" := by decide
  exact (((showsAs_paint .title title).append_free lineBreak).append
    (showsAs_paint .rule rule)).append_free emptyLine

theorem showsAs_paintSort (s : MethodSort) : ShowsAs (paintSort true s) (paintSort false s) :=
  showsAs_paint _ s.free_name

theorem showsAs_methodLine {report : MethodReport} (free : Free report.signature) :
    ShowsAs (methodLine true report) (methodLine false report) := by
  have modifiers : Free (String.join (report.modifiers.map fun m => m.name ++ " ")) := by
    apply Free.join
    rw [List.forall_mem_map]
    exact fun m _ => m.free_name.append (by decide)
  have sorts : ShowsAs (Text.joinWith ", " (report.sorts.map (paintSort true)))
      (Text.joinWith ", " (report.sorts.map (paintSort false))) :=
    .joinWith (by decide) fun s _ => showsAs_paintSort s
  have indent : Free "  " := by decide
  have opening : Free "  [" := by decide
  have closing : Free "]\n" := by decide
  exact (((((ShowsAs.of_free indent).append (showsAs_paint .modifiers modifiers)).append_free
    free).append_free opening).append sorts).append_free closing

theorem showsAs_typeLine (current : Option String) {typeName : String} (free : Free typeName) :
    ShowsAs (typeLine true current typeName) (typeLine false current typeName) := by
  have separator : Free (if current.isSome then "\n" else "") := by
    split_ifs <;> decide
  have lineBreak : Free "\n" := by decide
  rw [typeLine, typeLine]
  by_cases same : current = some typeName
  · rw [if_pos same, if_pos same]
    exact .of_free (by decide)
  · rw [if_neg same, if_neg same]
    exact ((ShowsAs.of_free separator).append (showsAs_paint .typeName free)).append_free lineBreak

theorem showsAs_methodLines {reports : List MethodReport}
    (free : ∀ report ∈ reports, report.IsFree) (current : Option String) :
    ShowsAs (methodLines true current reports) (methodLines false current reports) := by
  induction reports generalizing current with
  | nil => exact .of_free (by simp [Free, methodLines])
  | cons report reports ih =>
      obtain ⟨first, others⟩ := List.forall_mem_cons.mp free
      exact ((showsAs_typeLine current first.typeName).append
        (showsAs_methodLine first.signature)).append (ih others (some report.typeName))

theorem showsAs_summary (reports : List MethodReport) :
    ShowsAs (summary true reports) (summary false reports) := by
  have label : Free "Summary:" := by decide
  have lineBreak : Free "\n" := by decide
  have indent : Free "  " := by decide
  have space : Free " " := by decide
  have ending : Free " methods\n" := by decide
  have line (entry : MethodSort × Nat) :
      Free ("  " ++ Text.padRight 22 entry.1.name ++ " " ++ toString entry.2 ++ "\n") :=
    (((indent.append (free_padRight 22 entry.1.free_name)).append space).append
      (free_toString entry.2)).append lineBreak
  have counts : Free (String.join ((SortCounts.ofReports reports).counts.map fun entry =>
      "  " ++ Text.padRight 22 entry.1.name ++ " " ++ toString entry.2 ++ "\n")) :=
    Free.join (List.forall_mem_map.mpr fun entry _ => line entry)
  exact (((((ShowsAs.of_free lineBreak).append (showsAs_paint .label label)).append_free
    space).append_free (free_toString _)).append_free ending).append_free counts

/-- A coloured report is the plain one with escape and control sequences put in, and the plain one
has none, unless a text of the reports holds an escape character. -/
theorem delete_toTerminal {reports : List MethodReport}
    (free : ∀ report ∈ reports, report.IsFree) :
    delete (toTerminal true reports) = toTerminal false reports ∧
      Free (toTerminal false reports) := by
  have shows : ShowsAs (toTerminal true reports) (toTerminal false reports) :=
    (showsAs_header.append (showsAs_methodLines free none)).append (showsAs_summary reports)
  exact ⟨shows.delete_eq, shows.free⟩

/-- A method without modifiers, and a bridge of another type. -/
def twoTypes : List MethodReport := [
  { typeName := "com.example.Base"
    signature := "java.lang.Object get()"
    modifiers := []
    sorts := [.method, .overridable] },
  { typeName := "com.example.Sub"
    signature := "java.lang.Object get()"
    modifiers := [.public, .bridge]
    sorts := [.method, .overridable, .returnTypeBridge] }]

/-- The coloured report on the two types, which starts with a sequence, shows as the plain one. -/
theorem delete_toTerminal_twoTypes :
    (∀ report ∈ twoTypes, report.IsFree) ∧
      (toTerminal true twoTypes).toList.head? = some '\x1b' ∧
      delete (toTerminal true twoTypes) = toTerminal false twoTypes ∧
      Free (toTerminal false twoTypes) := by
  have free : ∀ report ∈ twoTypes, report.IsFree := by
    simp only [twoTypes, List.forall_mem_cons]
    exact ⟨⟨by decide, by decide⟩, ⟨by decide, by decide⟩, by simp⟩
  have coloured : (toTerminal true twoTypes).toList.head? = some '\x1b' := by
    simp only [toTerminal, header, String.toList_append, List.append_assoc, TextStyle.paint,
      if_true, String.toList_ofList]
    rfl
  exact ⟨free, coloured, delete_toTerminal free⟩

end Report

end BridgeMethods
