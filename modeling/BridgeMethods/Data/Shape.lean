import BridgeMethods.Data.Basic

/-!
# Records and enumerations in data trees

A record is written as a table with a member for each field, or as a list of its fields in the
order in which they are declared.  Members of other names are skipped; a field must not be given
twice.  A date counts as a record of its own that has none of the fields asked for.  A value of an
enumeration is its name, or a table whose only member has that name and an empty value.

The two notations differ in three points, which `Convention` states: what counts as an empty value,
what may stand in a member that is skipped, and whether a list may go on after the last field of a
record.  Nobody looks at the items it goes on with.
-/

namespace BridgeMethods.Data

/-- What a notation decides about the shape of records and enumerations. -/
structure Convention where
  /-- What may stand as the value of the only member of a written enumeration value. -/
  isEmptyValue : Data → Bool
  /-- What may stand as the value of a member that is skipped. -/
  maySkip : Data → Bool
  /-- Whether a list may have more items than the record that it stands for has fields. -/
  allowsSurplus : Bool

/-- In JSON the empty value is null, anything may be skipped, and a record has no further items. -/
def Convention.json : Convention where
  isEmptyValue
    | .null => true
    | _ => false
  maySkip _ := true
  allowsSurplus := false

/-- In TOML the empty value is an empty table or list, the numerals of a member must have values
even if it is skipped, and a list may go on. -/
def Convention.toml : Convention where
  isEmptyValue
    | .table members => members.isEmpty
    | .list items => items.isEmpty
    | _ => false
  maySkip := isSound
  allowsSurplus := true

/-- A field of a record: its value, or nothing if it is left out. -/
abbrev Field := Option Data

namespace Convention

variable (convention : Convention)

/-- The value of the field of a name among the members of a table. -/
def fieldOf (members : List (Option String × Data)) (name : String) : Field :=
  (members.find? (·.1 = some name)).map (·.2)

/-- Whether the members of a table have proper names and give none of the fields twice. -/
def givesOnce (names : List String) (members : List (Option String × Data)) : Bool :=
  members.all (·.1.isSome) &&
    names.all fun name => (members.filter (·.1 = some name)).length ≤ 1

/-- Whether the members of a table that give none of the fields may be skipped. -/
def skipsOthers (names : List String) (members : List (Option String × Data)) : Bool :=
  members.all fun (name, value) => name.any names.contains || convention.maySkip value

/-- The fields of a record in the order of their declaration. -/
def fields? (names : List String) : Data → Option (List Field)
  | .table members =>
      if givesOnce names members && convention.skipsOthers names members then
        some (names.map (fieldOf members))
      else none
  | .list items =>
      if items.length ≤ names.length || convention.allowsSurplus then
        some ((List.range names.length).map fun i => items[i]?)
      else none
  | .date _ => some (names.map fun _ => none)
  | _ => none

/-- The name of a value of an enumeration. -/
def enumeration? : Data → Option String
  | .text name => name
  | .table [(name, value)] => if convention.isEmptyValue value then name else none
  | _ => none

end Convention

namespace Field

variable {α : Type}

/-- The value of a field that must be given. -/
def required (field : Field) (read? : Data → Option α) : Option α :=
  field.bind read?

/-- The value of a field that has a default. -/
def default (field : Field) (value : α) (read? : Data → Option α) : Option α :=
  match field with
  | none => some value
  | some data => read? data

/-- The value of a field that may be left out or be null. -/
def optional (field : Field) (read? : Data → Option α) : Option (Option α) :=
  match field with
  | none | some .null => some none
  | some data => (read? data).map some

end Field

/-- The items of a list, each read in the same way. -/
def listOf? {α : Type} (read? : Data → Option α) (data : Data) : Option (List α) :=
  data.items?.bind (·.mapM read?)

end BridgeMethods.Data
