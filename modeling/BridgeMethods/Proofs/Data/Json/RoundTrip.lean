import BridgeMethods.Data.Json.Reader
import BridgeMethods.Proofs.Data.Json.Lexemes
import Mathlib.Data.List.Forall2

/-!
# What is written is read back

The lexemes of a written tree take the reader from where a value has to begin to where that value
has been seen, whatever lists and tables are open around it.  Lists and tables are read alike: an
entry, a comma, an entry, and so on to the closing mark.
-/

namespace BridgeMethods

/-- A tree that is written in JSON: it holds no dates, and its numbers are integers. -/
inductive Data.IsJson : Data → Prop
  | null : IsJson .null
  | bool (value : Bool) : IsJson (.bool value)
  | integer (value : Int) : IsJson (.integer value)
  | text (value : Option String) : IsJson (.text value)
  | list {items : List Data} : (∀ item ∈ items, IsJson item) → IsJson (.list items)
  | table {members : List (Option String × Data)} :
      (∀ member ∈ members, IsJson member.2) → IsJson (.table members)

namespace Data

theorem isJson_ofString (value : String) : (ofString value).IsJson :=
  .text (some value)

theorem isJson_ofStrings (values : List String) : (ofStrings values).IsJson :=
  .list (List.forall_mem_map.mpr fun value _ => isJson_ofString value)

theorem isJson_ofNat (value : Nat) : (ofNat value).IsJson :=
  .integer value

theorem isJson_record {members : List (String × Data)}
    (json : ∀ member ∈ members, member.2.IsJson) : (record members).IsJson :=
  .table (List.forall_mem_map.mpr json)

theorem isJson_ofString? : ∀ value, (ofString? value).IsJson
  | none => .null
  | some value => isJson_ofString value

end Data

namespace Data.Json

/-! ## Texts of entries -/

theorem lexes_newLine (level : Nat) : Lexes (newLine level).toList [] := by
  apply lexes_blank
  intro c member
  have cases : c = '\n' ∨ c = ' ' := by
    simp only [newLine, String.toList_append, String.toList_ofList, List.mem_append] at member
    rcases member with first | others
    · exact .inl (List.mem_singleton.mp first)
    · exact .inr (List.eq_of_mem_replicate others)
  rcases cases with rfl | rfl <;> rfl

/-- Texts with a comma and blanks between them have the lexemes of the texts with a comma between
them. -/
theorem lexesBefore_joinWith (blanks : String) (blank : Lexes blanks.toList [])
    {texts : List String} {groups : List (List Lexeme)}
    (each : List.Forall₂ (fun text group => LexesBefore text.toList group) texts groups) :
    LexesBefore (Text.joinWith ("," ++ blanks) texts).toList
      ([Lexeme.comma].intercalate groups) := by
  have separator : Lexes ("," ++ blanks).toList [.comma] := by
    rw [String.toList_append]
    exact (lexes_mark rfl).append blank
  induction each with
  | nil => exact Lexes.nil.before
  | @cons text group texts groups first others ih =>
      cases others with
      | nil => simpa [Text.joinWith] using first
      | cons second others =>
          have lexesFirst := first.append separator (by simp) (by simp [EndsWord, isWordChar])
          have lexes := lexesFirst.append_before ih
          simpa [Text.joinWith, List.intercalate] using lexes

/-- A block has the lexemes of its texts, with a comma between them and the two marks around. -/
theorem lexes_block (level : Nat) {opening closing : String} {first last : Lexeme}
    (opens : Lexes opening.toList [first]) (closes : Lexes closing.toList [last])
    {texts : List String} {groups : List (List Lexeme)}
    (each : List.Forall₂ (fun text group => LexesBefore text.toList group) texts groups) :
    Lexes (block level opening closing texts).toList
      (first :: ([Lexeme.comma].intercalate groups ++ [last])) := by
  cases each with
  | nil => simpa [block, List.intercalate] using opens.append closes
  | cons head others =>
      have items := lexesBefore_joinWith _ (lexes_newLine (level + 1)) (.cons head others)
      have ending : Lexes (newLine level ++ closing).toList [last] := by
        rw [String.toList_append]
        exact (lexes_newLine level).append closes
      have inner :=
        items.append ending (by simp [newLine]) (by simp [newLine, EndsWord, isWordChar])
      have whole := (opens.append (lexes_newLine (level + 1))).append inner
      simpa [block, String.append_assoc] using whole

/-- Texts in one line have the lexemes of a block of them. -/
theorem lexes_line {opening closing : Char} {first last : Lexeme}
    (opens : punctuation? opening = some first) (closes : punctuation? closing = some last)
    {texts : List String} {groups : List (List Lexeme)}
    (each : List.Forall₂ (fun text group => LexesBefore text.toList group) texts groups) :
    Lexes (opening :: ((Text.joinWith "," texts).toList ++ [closing]))
      (first :: ([Lexeme.comma].intercalate groups ++ [last])) := by
  have items := lexesBefore_joinWith "" Lexes.nil each
  rw [String.append_empty] at items
  have ends : EndsWord [closing] := by
    rintro c ⟨⟩
    exact isWordChar_of_punctuation? closes
  have inner := items.append (lexes_mark closes) (by simp) ends
  exact (lexes_mark opens).append inner

/-! ## Runs of the reader -/

/-- Lexemes that the reader takes for a value where a value has to begin. -/
def Reads (lexemes : List Lexeme) (value : Data) : Prop :=
  ∀ pending, lexemes.foldlM Reader.step ⟨.value, pending⟩ = some ⟨.done value, pending⟩

/-- Lexemes that the reader takes for a member where the name of a member has to begin. -/
def ReadsMember (lexemes : List Lexeme) (member : Option String × Data) : Prop :=
  ∀ passed pending, lexemes.foldlM Reader.step ⟨.name passed, pending⟩
    = some ⟨.done member.2, .table passed member.1 :: pending⟩

theorem ReadsMember.of_reads {lexemes : List Lexeme} {value : Data} (reads : Reads lexemes value)
    (name : Option String) : ReadsMember (.text name :: .colon :: lexemes) (name, value) :=
  fun passed pending => reads (.table passed name :: pending)

/-- Entries with a comma between them and a closing mark after them are read one by one, when the
reader is before an entry again after each comma. -/
theorem foldlM_intercalate {α : Type} (closing : Lexeme) (before : List α → Reader)
    (after : List α → α → Reader) (whole : List α → Reader) {groups : List (List Lexeme)}
    {entries : List α}
    (each : List.Forall₂ (fun group entry => ∀ passed,
      group.foldlM Reader.step (before passed) = some (after passed entry)) groups entries)
    (next : ∀ passed entry, (after passed entry).step .comma = some (before (entry :: passed)))
    (last : ∀ passed entry,
      (after passed entry).step closing = some (whole (entry :: passed).reverse))
    (nonempty : entries ≠ []) (passed : List α) :
    ([Lexeme.comma].intercalate groups ++ [closing]).foldlM Reader.step (before passed)
      = some (whole (passed.reverse ++ entries)) := by
  -- The reader keeps the entries it has passed, so the induction is for any of them.
  induction each generalizing passed with
  | nil => contradiction
  | @cons group entry groups entries first others ih =>
      cases others with
      | nil => simp [List.intercalate, first, last]
      | cons second others =>
          have rest := ih (by simp) (entry :: passed)
          simpa [List.intercalate, first, next] using rest

/-- What is read in an open list without items is read right after the opening of the list. -/
theorem foldlM_firstItem {lexemes : List Lexeme} {pending frames : List Frame} {value : Data}
    (run : lexemes.foldlM Reader.step ⟨.value, .list [] :: pending⟩ = some ⟨.done value, frames⟩) :
    lexemes.foldlM Reader.step ⟨.firstItem, pending⟩ = some ⟨.done value, frames⟩ := by
  cases lexemes with
  | nil => cases run
  | cons lexeme lexemes =>
      cases lexeme with
      | closeList => cases run
      | _ => exact run

/-- What is read in an open table without members is read right after the opening of the table. -/
theorem foldlM_firstName {lexemes : List Lexeme} {pending frames : List Frame} {value : Data}
    (run : lexemes.foldlM Reader.step ⟨.name [], pending⟩ = some ⟨.done value, frames⟩) :
    lexemes.foldlM Reader.step ⟨.firstName, pending⟩ = some ⟨.done value, frames⟩ := by
  cases lexemes with
  | nil => cases run
  | cons lexeme lexemes =>
      cases lexeme with
      | closeTable => cases run
      | _ => exact run

theorem Reads.list {groups : List (List Lexeme)} {items : List Data}
    (each : List.Forall₂ Reads groups items) :
    Reads (.openList :: ([Lexeme.comma].intercalate groups ++ [.closeList])) (.list items) := by
  intro pending
  cases items with
  | nil =>
      cases each
      rfl
  | cons item items =>
      have run := foldlM_intercalate .closeList (fun passed => ⟨.value, .list passed :: pending⟩)
        (fun passed item => ⟨.done item, .list passed :: pending⟩)
        (fun items => ⟨.done (.list items), pending⟩)
        (each.imp fun _ _ reads passed => reads (.list passed :: pending))
        (fun _ _ => rfl) (fun _ _ => rfl) (List.cons_ne_nil item items) []
      exact foldlM_firstItem run

theorem Reads.table {groups : List (List Lexeme)} {members : List (Option String × Data)}
    (each : List.Forall₂ ReadsMember groups members) :
    Reads (.openTable :: ([Lexeme.comma].intercalate groups ++ [.closeTable]))
      (.table members) := by
  intro pending
  cases members with
  | nil =>
      cases each
      rfl
  | cons member members =>
      have run := foldlM_intercalate .closeTable (fun passed => ⟨.name passed, pending⟩)
        (fun passed member => ⟨.done member.2, .table passed member.1 :: pending⟩)
        (fun members => ⟨.done (.table members), pending⟩)
        (each.imp fun _ _ reads passed => reads passed pending)
        (fun _ _ => rfl) (fun _ _ => rfl) (List.cons_ne_nil member members) []
      exact foldlM_firstName run

/-! ## Texts of trees -/

/-- A text whose lexemes the reader takes for a value, whatever comes after it that ends a word. -/
def Denotes (text : String) (value : Data) : Prop :=
  ∃ lexemes, LexesBefore text.toList lexemes ∧ Reads lexemes value

theorem exists_groups {α : Type} {IsRead : List Lexeme → α → Prop} {texts : List String}
    {entries : List α}
    (each : List.Forall₂
      (fun text entry => ∃ lexemes, LexesBefore text.toList lexemes ∧ IsRead lexemes entry)
      texts entries) :
    ∃ groups, List.Forall₂ (fun text group => LexesBefore text.toList group) texts groups ∧
      List.Forall₂ IsRead groups entries := by
  induction each with
  | nil => exact ⟨[], .nil, .nil⟩
  | cons first _ ih =>
      obtain ⟨lexemes, lexes, reads⟩ := first
      obtain ⟨groups, lexesOthers, readsOthers⟩ := ih
      exact ⟨lexemes :: groups, .cons lexes lexesOthers, .cons reads readsOthers⟩

theorem Denotes.of_word {text : String} {value : Data}
    (lexes : LexesBefore text.toList [.word value]) : Denotes text value :=
  ⟨[.word value], lexes, fun _ => rfl⟩

theorem denotes_null : Denotes "null" .null :=
  .of_word (lexesBefore_word rfl rfl)

theorem denotes_bool (value : Bool) :
    Denotes (if value then "true" else "false") (.bool value) := by
  cases value with
  | false => exact .of_word (lexesBefore_word rfl rfl)
  | true => exact .of_word (lexesBefore_word rfl rfl)

theorem denotes_quote (value : Option String) : Denotes (quote value) (.text value) :=
  ⟨[.text value], (lexes_quote value).before, fun _ => rfl⟩

/-- Texts of items, put between brackets in one of the layouts, denote the list of the items. -/
theorem Denotes.list {text : String} {texts : List String} {items : List Data}
    (layout : ∀ groups,
      List.Forall₂ (fun text group => LexesBefore text.toList group) texts groups →
        Lexes text.toList (.openList :: ([Lexeme.comma].intercalate groups ++ [.closeList])))
    (each : List.Forall₂ Denotes texts items) : Denotes text (.list items) := by
  obtain ⟨groups, lexes, reads⟩ := exists_groups each
  exact ⟨_, (layout groups lexes).before, Reads.list reads⟩

/-- A text that denotes a member of a table. -/
def DenotesMember (text : String) (member : Option String × Data) : Prop :=
  ∃ lexemes, LexesBefore text.toList lexemes ∧ ReadsMember lexemes member

theorem Denotes.table {text : String} {texts : List String}
    {members : List (Option String × Data)}
    (layout : ∀ groups,
      List.Forall₂ (fun text group => LexesBefore text.toList group) texts groups →
        Lexes text.toList (.openTable :: ([Lexeme.comma].intercalate groups ++ [.closeTable])))
    (each : List.Forall₂ DenotesMember texts members) : Denotes text (.table members) := by
  obtain ⟨groups, lexes, reads⟩ := exists_groups each
  exact ⟨_, (layout groups lexes).before, Reads.table reads⟩

theorem Denotes.member {text separator : String} {value : Data} (denotes : Denotes text value)
    (isColon : Lexes separator.toList [.colon]) (name : Option String) :
    DenotesMember (quote name ++ separator ++ text) (name, value) := by
  obtain ⟨lexemes, lexes, reads⟩ := denotes
  refine ⟨.text name :: .colon :: lexemes, ?_, .of_reads reads name⟩
  rw [String.toList_append, String.toList_append]
  exact ((lexes_quote name).append isColon).append_before lexes

/-! ## Layouts of trees -/

theorem prettyItems_eq_map (level : Nat) (items : List Data) :
    prettyItems level items = items.map (prettyAt level) := by
  induction items with
  | nil => rfl
  | cons item items ih => exact congrArg (prettyAt level item :: ·) ih

theorem prettyMembers_eq_map (level : Nat) (members : List (Option String × Data)) :
    prettyMembers level members =
      members.map fun member => quote member.1 ++ ": " ++ prettyAt level member.2 := by
  induction members with
  | nil => rfl
  | cons member members ih =>
      exact congrArg ((quote member.1 ++ ": " ++ prettyAt level member.2) :: ·) ih

theorem prettyAt_list (level : Nat) (items : List Data) :
    prettyAt level (.list items) = block level "[" "]" (items.map (prettyAt (level + 1))) :=
  congrArg (block level "[" "]") (prettyItems_eq_map (level + 1) items)

theorem prettyAt_table (level : Nat) (members : List (Option String × Data)) :
    prettyAt level (.table members) = block level "\x7b" "\x7d"
      (members.map fun member => quote member.1 ++ ": " ++ prettyAt (level + 1) member.2) :=
  congrArg (block level "\x7b" "\x7d") (prettyMembers_eq_map (level + 1) members)

/-- The written form of a tree denotes the tree, at every level of indentation. -/
theorem denotes_prettyAt {value : Data} (json : value.IsJson) (level : Nat) :
    Denotes (prettyAt level value) value := by
  induction json generalizing level with
  | null => exact denotes_null
  | bool value => exact denotes_bool value
  | integer value => exact .of_word (lexesBefore_toString value)
  | text value => exact denotes_quote value
  | @list items _ ih =>
      have opens : Lexes "[".toList [.openList] := lexes_mark rfl
      have closes : Lexes "]".toList [.closeList] := lexes_mark rfl
      rw [prettyAt_list]
      apply Denotes.list fun _ lexes => lexes_block level opens closes lexes
      rw [List.forall₂_map_left_iff, List.forall₂_same]
      exact fun item member => ih item member (level + 1)
  | @table members _ ih =>
      have opens : Lexes "\x7b".toList [.openTable] := lexes_mark rfl
      have closes : Lexes "\x7d".toList [.closeTable] := lexes_mark rfl
      have isColon : Lexes ": ".toList [.colon] := (lexes_mark rfl).append (lexes_space rfl)
      rw [prettyAt_table]
      apply Denotes.table fun _ lexes => lexes_block level opens closes lexes
      rw [List.forall₂_map_left_iff, List.forall₂_same]
      exact fun member isMember => (ih member isMember (level + 1)).member isColon member.1

theorem compactItems_eq_map (items : List Data) : compactItems items = items.map compact := by
  induction items with
  | nil => rfl
  | cons item items ih => exact congrArg (compact item :: ·) ih

theorem compactMembers_eq_map (members : List (Option String × Data)) :
    compactMembers members = members.map fun member => quote member.1 ++ ":" ++ compact member.2 := by
  induction members with
  | nil => rfl
  | cons member members ih =>
      exact congrArg ((quote member.1 ++ ":" ++ compact member.2) :: ·) ih

theorem toList_compact_list (items : List Data) :
    (compact (.list items)).toList =
      '[' :: ((Text.joinWith "," (items.map compact)).toList ++ [']']) := by
  rw [compact, compactItems_eq_map, String.toList_append, String.toList_append]
  rfl

theorem toList_compact_table (members : List (Option String × Data)) :
    (compact (.table members)).toList =
      '\x7b' :: ((Text.joinWith "," (members.map fun member =>
        quote member.1 ++ ":" ++ compact member.2)).toList ++ ['\x7d']) := by
  rw [compact, compactMembers_eq_map, String.toList_append, String.toList_append]
  rfl

/-- The written form of a tree in one line denotes the tree. -/
theorem denotes_compact {value : Data} (json : value.IsJson) : Denotes (compact value) value := by
  induction json with
  | null => exact denotes_null
  | bool value => exact denotes_bool value
  | integer value => exact .of_word (lexesBefore_toString value)
  | text value => exact denotes_quote value
  | @list items _ ih =>
      apply Denotes.list fun _ lexes => toList_compact_list items ▸ lexes_line rfl rfl lexes
      rw [List.forall₂_map_left_iff, List.forall₂_same]
      exact ih
  | @table members _ ih =>
      have isColon : Lexes ":".toList [.colon] := lexes_mark rfl
      apply Denotes.table fun _ lexes => toList_compact_table members ▸ lexes_line rfl rfl lexes
      rw [List.forall₂_map_left_iff, List.forall₂_same]
      exact fun member isMember => (ih member isMember).member isColon member.1

/-- A text that denotes a tree is read as the tree, with blanks behind it as well. -/
theorem read_of_denotes {text blanks : String} {value : Data} (denotes : Denotes text value)
    (blank : blanks.toList.all isSpace = true) : read (text ++ blanks) = some value := by
  obtain ⟨lexemes, lexes, reads⟩ := denotes
  rw [List.all_eq_true] at blank
  have ends : EndsWord blanks.toList := by
    intro c starts
    exact isWordChar_of_isSpace (blank c (List.mem_of_head? starts))
  have nothing : lexFrom (.word []) blanks.toList = some [] := by
    simpa [lexFrom_word_nil, consWord?_nil] using lexes_blank blank []
  have lexed : lex (text ++ blanks) = some lexemes := by
    rw [lex, String.toList_append, lexes _ ends, nothing]
    simp
  have run : lexemes.foldlM Reader.step Reader.start = some ⟨.done value, []⟩ := reads []
  rw [read, lexed, Option.bind_eq_bind, Option.bind_some, run]
  rfl

/-- The written form of a tree is read as the tree, with blanks behind it as well. -/
theorem read_pretty_append {value : Data} (json : value.IsJson) {blanks : String}
    (blank : blanks.toList.all isSpace = true) : read (pretty value ++ blanks) = some value :=
  read_of_denotes (denotes_prettyAt json 0) blank

theorem read_compact {value : Data} (json : value.IsJson) : read (compact value) = some value := by
  have noBlanks := @read_of_denotes _ "" _ (denotes_compact json) rfl
  rwa [String.append_empty] at noBlanks

theorem read_pretty {value : Data} (json : value.IsJson) : read (pretty value) = some value := by
  have noBlanks := @read_pretty_append _ json "" rfl
  rwa [String.append_empty] at noBlanks

end Data.Json

end BridgeMethods
