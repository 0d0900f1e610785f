import BridgeMethods.Data.Shape
import BridgeMethods.Proofs.Data.Json.RoundTrip
import BridgeMethods.Proofs.Lookup

/-!
# Records without some of their fields

A field that has a default may be left out of a record.  `RecordShape.Abridges` relates a tree to
what is left of it when fields that hold their defaults are left out, in the record itself and in
the records that are listed in its fields.  A reader that knows the defaults does not notice: it
asks for the fields one by one, and each is read as before.
-/

namespace BridgeMethods.Data

/-- What is known of the fields of a record when some of them are left out. -/
structure RecordShape where
  fieldNames : List String
  /-- The values of a field that say the same as leaving it out. -/
  defaults : String → List Data
  /-- What may become of the records in a field, if it lists records. -/
  parts : String → Option (Data → Data → Prop)

namespace RecordShape

variable (shape : RecordShape)

/-- The value of a field is kept, but if it lists records, something may be left out of these. -/
inductive KeepsField (name : String) : Data → Data → Prop
  | same (value : Data) : KeepsField name value value
  | items {abridges : Data → Data → Prop} {items others : List Data} :
      shape.parts name = some abridges → List.Forall₂ abridges items others →
      KeepsField name (.list items) (.list others)

/-- Some members of a table are left out, and the values of the others are kept. -/
inductive AbridgesMembers : List (Option String × Data) → List (Option String × Data) → Prop
  | nil : AbridgesMembers [] []
  | kept {name : String} {value other : Data} {members others : List (Option String × Data)} :
      shape.KeepsField name value other → AbridgesMembers members others →
      AbridgesMembers ((some name, value) :: members) ((some name, other) :: others)
  | omitted {name : String} {value : Data} {members others : List (Option String × Data)} :
      value ∈ shape.defaults name → AbridgesMembers members others →
      AbridgesMembers ((some name, value) :: members) others

/-- Some of the last items of a record that is written as a list are left out, where the items are
the values of the fields of the given names. -/
inductive AbridgesItems : List String → List Data → List Data → Prop
  | nil {names : List String} : AbridgesItems names [] []
  | kept {name : String} {names : List String} {value other : Data} {items others : List Data} :
      shape.KeepsField name value other → AbridgesItems names items others →
      AbridgesItems (name :: names) (value :: items) (other :: others)
  | omitted {name : String} {names : List String} {value : Data} {items : List Data} :
      value ∈ shape.defaults name → AbridgesItems names items [] →
      AbridgesItems (name :: names) (value :: items) []

/-- Fields that hold their defaults are left out of a record, or of the records in its fields. -/
inductive Abridges : Data → Data → Prop
  | same (data : Data) : Abridges data data
  | table {members others : List (Option String × Data)} :
      shape.AbridgesMembers members others → Abridges (.table members) (.table others)
  | list {items others : List Data} :
      shape.AbridgesItems shape.fieldNames items others → Abridges (.list items) (.list others)

/-- What becomes of a field. -/
inductive AbridgesField (name : String) : Field → Field → Prop
  | absent : AbridgesField name none none
  | kept {value other : Data} :
      shape.KeepsField name value other → AbridgesField name (some value) (some other)
  | omitted {value : Data} :
      value ∈ shape.defaults name → AbridgesField name (some value) none

/-- What becomes of the fields of the given names. -/
inductive AbridgesFields : List String → List Field → List Field → Prop
  | nil : AbridgesFields [] [] []
  | cons {name : String} {names : List String} {field other : Field} {fields others : List Field} :
      shape.AbridgesField name field other → AbridgesFields names fields others →
      AbridgesFields (name :: names) (field :: fields) (other :: others)

variable {shape}

/-! ## Fields of an abridged record -/

theorem AbridgesField.refl (name : String) : ∀ field, shape.AbridgesField name field field
  | none => .absent
  | some value => .kept (.same value)

theorem AbridgesFields.refl : ∀ {names : List String} {fields : List Field},
    names.length = fields.length → shape.AbridgesFields names fields fields
  | [], [], _ => .nil
  | name :: _, field :: _, sameLength => .cons (.refl name field) (.refl (Nat.succ.inj sameLength))

theorem AbridgesFields.map {names : List String} {field other : String → Field}
    (each : ∀ name ∈ names, shape.AbridgesField name (field name) (other name)) :
    shape.AbridgesFields names (names.map field) (names.map other) := by
  induction names with
  | nil => exact .nil
  | cons name names ih =>
      obtain ⟨first, rest⟩ := List.forall_mem_cons.mp each
      exact .cons first (ih rest)

namespace AbridgesMembers

variable {members others : List (Option String × Data)}

theorem sublist (abridged : shape.AbridgesMembers members others) :
    (others.map (·.1)).Sublist (members.map (·.1)) := by
  induction abridged with
  | nil => exact List.nil_sublist []
  | kept _ _ ih => exact ih.cons_cons _
  | omitted _ _ ih => exact ih.cons _

theorem length_filter_le (abridged : shape.AbridgesMembers members others) (name : Option String) :
    (others.filter (·.1 = name)).length ≤ (members.filter (·.1 = name)).length := by
  have fewer := (abridged.sublist.filter (· = name)).length_le
  rwa [List.filter_map, List.filter_map, List.length_map, List.length_map] at fewer

/-- A member that is given once is gone if it is left out. -/
theorem abridgesField (abridged : shape.AbridgesMembers members others) {name : String}
    (once : (members.filter (·.1 = some name)).length ≤ 1) :
    shape.AbridgesField name (Convention.fieldOf members name)
      (Convention.fieldOf others name) := by
  induction abridged with
  | nil => exact .absent
  | @kept other _ _ members others keeps _ ih =>
      by_cases here : other = name
      · subst here
        simpa [Convention.fieldOf] using AbridgesField.kept keeps
      · have onceLater : (members.filter (·.1 = some name)).length ≤ 1 := by
          simpa [here] using once
        simpa [Convention.fieldOf, here] using ih onceLater
  | @omitted other value members others isDefault abridged ih =>
      by_cases here : other = name
      · -- Nothing of the name comes after the member, as the name is given once.
        subst here
        have noneLater : (members.filter (·.1 = some other)).length ≤ 0 := by simpa using once
        have noneLeft : others.filter (·.1 = some other) = [] :=
          List.length_eq_zero_iff.mp
            (Nat.le_zero.mp ((abridged.length_filter_le _).trans noneLater))
        have missing : Convention.fieldOf others other = none := by
          rw [Convention.fieldOf, Option.map_eq_none_iff, List.find?_eq_none]
          exact List.filter_eq_nil_iff.mp noneLeft
        have given : Convention.fieldOf ((some other, value) :: members) other = some value := by
          simp [Convention.fieldOf]
        rw [given, missing]
        exact .omitted isDefault
      · have onceLater : (members.filter (·.1 = some name)).length ≤ 1 := by
          simpa [here] using once
        simpa [Convention.fieldOf, here] using ih onceLater

theorem givesOnce (abridged : shape.AbridgesMembers members others) {names : List String}
    (once : Convention.givesOnce names members = true) :
    Convention.givesOnce names others = true := by
  rw [Convention.givesOnce, Bool.and_eq_true, List.all_eq_true, List.all_eq_true] at once ⊢
  obtain ⟨named, once⟩ := once
  refine ⟨fun member memberOf => ?_, fun name nameMember => ?_⟩
  · obtain ⟨former, formerMember, sameName⟩ :=
      List.mem_map.mp (abridged.sublist.subset (List.mem_map_of_mem memberOf))
    rw [← sameName]
    exact named former formerMember
  · have before := of_decide_eq_true (once name nameMember)
    exact decide_eq_true ((abridged.length_filter_le _).trans before)

end AbridgesMembers

theorem skipsOthers_json (names : List String) (members : List (Option String × Data)) :
    Convention.json.skipsOthers names members = true := by
  simp [Convention.skipsOthers, Convention.json]

/-- The items of a list as the fields of a record. -/
theorem map_range_getElem?_cons (length : Nat) (item : Data) (items : List Data) :
    (List.range (length + 1)).map ((item :: items)[·]?) =
      some item :: (List.range length).map (items[·]?) := by
  simp [List.range_succ_eq_map]

namespace AbridgesItems

variable {names : List String} {items others : List Data}

theorem length_le (abridged : shape.AbridgesItems names items others) :
    others.length ≤ items.length := by
  induction abridged with
  | nil => exact Nat.le_refl _
  | kept _ _ ih => exact Nat.succ_le_succ ih
  | omitted _ _ _ => exact Nat.zero_le _

theorem abridgesFields (abridged : shape.AbridgesItems names items others) :
    shape.AbridgesFields names ((List.range names.length).map (items[·]?))
      ((List.range names.length).map (others[·]?)) := by
  induction abridged with
  | nil => exact .refl (by simp)
  | kept keeps _ ih =>
      rw [List.length_cons, map_range_getElem?_cons, map_range_getElem?_cons]
      exact .cons (.kept keeps) ih
  | @omitted _ names _ _ isDefault _ ih =>
      have nothing : (List.range (names.length + 1)).map (([] : List Data)[·]?) =
          none :: (List.range names.length).map (([] : List Data)[·]?) := by
        rw [List.range_succ_eq_map, List.map_cons, List.map_map]
        rfl
      rw [List.length_cons, map_range_getElem?_cons, nothing]
      exact .cons (.omitted isDefault) ih

end AbridgesItems

theorem length_fields? {convention : Convention} {names : List String} {data : Data}
    {fields : List Field} (given : convention.fields? names data = some fields) :
    names.length = fields.length := by
  unfold Convention.fields? at given
  split at given
  · split_ifs at given
    rw [← Option.some.inj given, List.length_map]
  · split_ifs at given
    rw [← Option.some.inj given, List.length_map, List.length_range]
  · rw [← Option.some.inj given, List.length_map]
  · contradiction

/-- The fields of a JSON record from which fields are left out. -/
theorem Abridges.fields? {data other : Data} (abridged : shape.Abridges data other)
    {fields : List Field} (given : Convention.json.fields? shape.fieldNames data = some fields) :
    ∃ others, Convention.json.fields? shape.fieldNames other = some others ∧
      shape.AbridgesFields shape.fieldNames fields others := by
  cases abridged with
  | same => exact ⟨fields, given, .refl (length_fields? given)⟩
  | @table members others abridged =>
      simp only [Convention.fields?, skipsOthers_json, Bool.and_true] at given ⊢
      split_ifs at given with once
      obtain rfl := Option.some.inj given
      refine ⟨_, if_pos (abridged.givesOnce once), .map fun name member => ?_⟩
      rw [Convention.givesOnce, Bool.and_eq_true, List.all_eq_true, List.all_eq_true] at once
      exact abridged.abridgesField (of_decide_eq_true (once.2 name member))
  | @list items others abridged =>
      simp only [Convention.fields?] at given ⊢
      split_ifs at given with fits
      obtain rfl := Option.some.inj given
      have surplus : Convention.json.allowsSurplus = false := rfl
      simp only [surplus, Bool.or_false, decide_eq_true_eq] at fits ⊢
      exact ⟨_, if_pos (abridged.length_le.trans fits), abridged.abridgesFields⟩

/-! ## Reading what is left -/

section Reading

variable {α : Type} {read? : Data → Option α} {name : String} {field other : Field}

variable (shape) in
/-- A reader of the values of a field does not notice what is left out in them. -/
def Unnoticed (name : String) (read? : Data → Option α) : Prop :=
  ∀ value kept a, shape.KeepsField name value kept → read? value = some a → read? kept = some a

theorem Unnoticed.of_noParts (noParts : shape.parts name = none) :
    shape.Unnoticed name read? := by
  intro value kept a keeps read
  cases keeps with
  | same => exact read
  | items isPart _ => exact absurd (noParts.symm.trans isPart) (Option.some_ne_none _).symm

theorem mapM_of_forall₂ {items others : List Data} {values : List α}
    (related : List.Forall₂ (fun item other => ∀ a, read? item = some a → read? other = some a)
      items others) (read : items.mapM read? = some values) : others.mapM read? = some values := by
  induction related generalizing values with
  | nil => exact read
  | cons first _ ih =>
      rw [List.mapM_cons, Option.bind_eq_bind, Option.bind_eq_some_iff] at read ⊢
      obtain ⟨value, firstRead, read⟩ := read
      obtain ⟨rest, restRead, read⟩ := Option.bind_eq_some_iff.mp read
      exact ⟨value, first value firstRead, Option.bind_eq_some_iff.mpr ⟨rest, ih restRead, read⟩⟩

/-- A list of records is read as before if each of the records is. -/
theorem Unnoticed.listOf? {abridges : Data → Data → Prop} (isPart : shape.parts name = some abridges)
    (part : ∀ item other a, abridges item other → read? item = some a → read? other = some a) :
    shape.Unnoticed name (Data.listOf? read?) := by
  intro value kept values keeps read
  cases keeps with
  | same => exact read
  | items isPart' related =>
      obtain rfl := Option.some.inj (isPart.symm.trans isPart')
      exact mapM_of_forall₂
        (related.imp fun item other abridged a => part item other a abridged) read

namespace AbridgesField

theorem required (abridged : shape.AbridgesField name field other) {a : α}
    (read : field.required read? = some a) (unnoticed : shape.Unnoticed name read?)
    (noDefault : shape.defaults name = []) : other.required read? = some a := by
  cases abridged with
  | absent => exact read
  | kept keeps => exact unnoticed _ _ a keeps read
  | omitted isDefault =>
      rw [noDefault] at isDefault
      contradiction

theorem default (abridged : shape.AbridgesField name field other) {value a : α}
    (read : field.default value read? = some a) (unnoticed : shape.Unnoticed name read?)
    (defaults : ∀ data ∈ shape.defaults name, read? data = some value) :
    other.default value read? = some a := by
  cases abridged with
  | absent => exact read
  | kept keeps => exact unnoticed _ _ a keeps read
  | omitted isDefault => exact (defaults _ isDefault).symm.trans read

theorem optional (abridged : shape.AbridgesField name field other) {a : Option α}
    (read : field.optional read? = some a) (noParts : shape.parts name = none)
    (defaults : ∀ data ∈ shape.defaults name, data = .null) :
    other.optional read? = some a := by
  cases abridged with
  | absent => exact read
  | kept keeps =>
      cases keeps with
      | same => exact read
      | items isPart _ => exact absurd (noParts.symm.trans isPart) (Option.some_ne_none _).symm
  | omitted isDefault =>
      obtain rfl := defaults _ isDefault
      exact read

end AbridgesField

end Reading

/-! ## Abridged JSON -/

section Json

variable (partsJson : ∀ name abridges, shape.parts name = some abridges →
  ∀ item other, abridges item other → item.IsJson → other.IsJson)

include partsJson

theorem KeepsField.isJson {name : String} {value kept : Data}
    (keeps : shape.KeepsField name value kept) (json : value.IsJson) : kept.IsJson := by
  cases keeps with
  | same => exact json
  | items isPart related =>
      cases json with
      | list each =>
          refine .list fun other member => ?_
          obtain ⟨item, itemMember, abridged⟩ := related.flip.exists_of_mem_left member
          exact partsJson name _ isPart item other abridged (each item itemMember)

theorem AbridgesMembers.isJson {members others : List (Option String × Data)}
    (abridged : shape.AbridgesMembers members others)
    (json : ∀ member ∈ members, member.2.IsJson) : ∀ member ∈ others, member.2.IsJson := by
  induction abridged with
  | nil => exact json
  | kept keeps _ ih =>
      obtain ⟨first, rest⟩ := List.forall_mem_cons.mp json
      exact List.forall_mem_cons.mpr ⟨keeps.isJson partsJson first, ih rest⟩
  | omitted _ _ ih => exact ih (List.forall_mem_cons.mp json).2

theorem AbridgesItems.isJson {names : List String} {items others : List Data}
    (abridged : shape.AbridgesItems names items others)
    (json : ∀ item ∈ items, item.IsJson) : ∀ item ∈ others, item.IsJson := by
  induction abridged with
  | nil => exact json
  | kept keeps _ ih =>
      obtain ⟨first, rest⟩ := List.forall_mem_cons.mp json
      exact List.forall_mem_cons.mpr ⟨keeps.isJson partsJson first, ih rest⟩
  | omitted _ _ _ => exact nofun

/-- What is left of a JSON tree is one too. -/
theorem Abridges.isJson {data other : Data} (abridged : shape.Abridges data other)
    (json : data.IsJson) : other.IsJson := by
  cases abridged with
  | same => exact json
  | table abridged =>
      cases json with
      | table each => exact .table (abridged.isJson partsJson each)
  | list abridged =>
      cases json with
      | list each => exact .list (abridged.isJson partsJson each)

end Json

end RecordShape

end BridgeMethods.Data
