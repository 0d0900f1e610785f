import BridgeMethods.Definition.Document
import BridgeMethods.Pool.Validation
import BridgeMethods.Proofs.Data.Omission

/-!
# Hierarchy documents are read back

The JSON text of a document is read as the document, in both layouts.  Nothing changes if fields
that hold their defaults are left out, in any of the records; and a document that is read, written
with all fields and read again makes the same pool or is refused for the same reason.
-/

namespace BridgeMethods

open Data (RecordShape isJson_ofString isJson_ofString? isJson_ofStrings isJson_record)

namespace Data

theorem listOf?_map {α : Type} {read? : Data → Option α} {write : α → Data}
    (inverse : ∀ a, read? (write a) = some a) (values : List α) :
    listOf? read? (.list (values.map write)) = some values := by
  rw [listOf?, items?, Option.bind_some]
  induction values with
  | nil => rfl
  | cons a values ih =>
      rw [List.map_cons, List.mapM_cons, inverse, ih]
      rfl

theorem optional_ofString? : ∀ value, Field.optional (some (ofString? value)) string? = some value
  | none => rfl
  | some _ => rfl

theorem isJson_list_map {α : Type} {write : α → Data} (json : ∀ a, (write a).IsJson)
    (values : List α) : (Data.list (values.map write)).IsJson :=
  .list (List.forall_mem_map.mpr fun a _ => json a)

@[simp]
theorem listOf?_nil {α : Type} (read? : Data → Option α) : listOf? read? (.list []) = some [] :=
  rfl

@[simp]
theorem string?_ofString (value : String) : (ofString value).string? = some value := rfl

end Data

/-! ## Modifiers and kinds of types -/

theorem Modifier.ofData?_toData (m : Modifier) : ofData? .json m.toData = some m :=
  ofName?_name m

theorem Modifier.isJson_toData (m : Modifier) : m.toData.IsJson :=
  isJson_ofString m.name

namespace TypeKind

theorem ofData?_toData (kind : TypeKind) : ofData? .json kind.toData = some kind :=
  ofName?_name kind

/-- The two ways to write that a type is a class. -/
def classForms : List Data := [.ofString "class", .table [(some "class", .null)]]

theorem ofData?_of_mem_classForms : ∀ data ∈ classForms, ofData? .json data = some .class := by
  simp only [classForms, List.forall_mem_cons]
  exact ⟨by decide, by decide, nofun⟩

theorem isJson_toData (kind : TypeKind) : kind.toData.IsJson :=
  isJson_ofString kind.name

end TypeKind

/-! ## Type variables -/

namespace TypeVariableDef

/-- The bound may be left out. -/
def shape : RecordShape where
  fieldNames := fieldNames
  defaults
    | "bound" => [.null]
    | _ => []
  parts _ := none

/-- A definition is read from its fields. -/
theorem ofData?_eq_some_iff {convention : Data.Convention} {data : Data}
    {definition : TypeVariableDef} :
    ofData? convention data = some definition ↔
      ∃ name bound, convention.fields? fieldNames data = some [name, bound] ∧
        name.required Data.string? = some definition.name ∧
        bound.optional Data.string? = some definition.bound := by
  rw [ofData?, Option.bind_eq_bind, Option.bind_eq_some_iff]
  constructor
  · rintro ⟨fields, given, read⟩
    split at read
    · simp only [Option.bind_eq_bind, Option.bind_eq_some_iff] at read
      obtain ⟨name, nameRead, bound, boundRead, read⟩ := read
      obtain rfl := Option.some.inj read
      exact ⟨_, _, given, nameRead, boundRead⟩
    · contradiction
  · rintro ⟨name, bound, given, nameRead, boundRead⟩
    refine ⟨_, given, ?_⟩
    simp only [nameRead, boundRead]
    rfl

theorem ofData?_toData (definition : TypeVariableDef) :
    ofData? .json definition.toData = some definition :=
  ofData?_eq_some_iff.mpr ⟨_, _, rfl, rfl, Data.optional_ofString? _⟩

theorem isJson_toData (definition : TypeVariableDef) : definition.toData.IsJson := by
  apply isJson_record
  simp only [List.forall_mem_cons]
  exact ⟨isJson_ofString _, isJson_ofString? _, nofun⟩

theorem ofData?_of_abridges {data other : Data} (abridged : shape.Abridges data other)
    {definition : TypeVariableDef} (read : ofData? .json data = some definition) :
    ofData? .json other = some definition := by
  obtain ⟨name, bound, given, nameRead, boundRead⟩ := ofData?_eq_some_iff.mp read
  obtain ⟨others, otherGiven, fields⟩ := abridged.fields? given
  rcases fields with _ | ⟨nameAbridged, _ | ⟨boundAbridged, _ | _⟩⟩
  refine ofData?_eq_some_iff.mpr ⟨_, _, otherGiven, ?_, ?_⟩
  · exact nameAbridged.required nameRead (.of_noParts rfl) rfl
  · exact boundAbridged.optional boundRead rfl (List.forall_mem_singleton.mpr rfl)

theorem isJson_of_abridges {data other : Data} (abridged : shape.Abridges data other)
    (json : data.IsJson) : other.IsJson :=
  abridged.isJson (fun _ _ isPart => absurd isPart (Option.some_ne_none _).symm) json

end TypeVariableDef

/-! ## Methods -/

namespace MethodDef

/-- All fields but the name may be left out. -/
def shape : RecordShape where
  fieldNames := fieldNames
  defaults
    | "modifiers" | "type_parameters" | "parameters" => [.list []]
    | "returns" => [.ofString "void"]
    | _ => []
  parts
    | "type_parameters" => some TypeVariableDef.shape.Abridges
    | _ => none

theorem ofData?_eq_some_iff {convention : Data.Convention} {data : Data}
    {definition : MethodDef} :
    ofData? convention data = some definition ↔
      ∃ name modifiers typeParameters returns parameters,
        convention.fields? fieldNames data =
          some [name, modifiers, typeParameters, returns, parameters] ∧
        name.required Data.string? = some definition.name ∧
        modifiers.default [] (Data.listOf? (Modifier.ofData? convention)) =
          some definition.modifiers ∧
        typeParameters.default [] (Data.listOf? (TypeVariableDef.ofData? convention)) =
          some definition.typeParameters ∧
        returns.default "void" Data.string? = some definition.returns ∧
        parameters.default [] (Data.listOf? Data.string?) = some definition.parameters := by
  rw [ofData?, Option.bind_eq_bind, Option.bind_eq_some_iff]
  constructor
  · rintro ⟨fields, given, read⟩
    split at read
    · simp only [Option.bind_eq_bind, Option.bind_eq_some_iff] at read
      obtain ⟨name, nameRead, modifiers, modifiersRead, typeParameters, typeParametersRead,
        returns, returnsRead, parameters, parametersRead, read⟩ := read
      obtain rfl := Option.some.inj read
      exact ⟨_, _, _, _, _, given, nameRead, modifiersRead, typeParametersRead, returnsRead,
        parametersRead⟩
    · contradiction
  · rintro ⟨name, modifiers, typeParameters, returns, parameters, given, nameRead, modifiersRead,
      typeParametersRead, returnsRead, parametersRead⟩
    refine ⟨_, given, ?_⟩
    simp only [nameRead, modifiersRead, typeParametersRead, returnsRead, parametersRead]
    rfl

theorem ofData?_toData (definition : MethodDef) :
    ofData? .json definition.toData = some definition :=
  ofData?_eq_some_iff.mpr ⟨_, _, _, _, _, rfl, rfl,
    Data.listOf?_map Modifier.ofData?_toData _,
    Data.listOf?_map TypeVariableDef.ofData?_toData _, rfl,
    Data.listOf?_map Data.string?_ofString _⟩

theorem isJson_toData (definition : MethodDef) : definition.toData.IsJson := by
  apply isJson_record
  simp only [List.forall_mem_cons]
  exact ⟨isJson_ofString _, Data.isJson_list_map Modifier.isJson_toData _,
    Data.isJson_list_map TypeVariableDef.isJson_toData _, isJson_ofString _, isJson_ofStrings _,
    nofun⟩

theorem ofData?_of_abridges {data other : Data} (abridged : shape.Abridges data other)
    {definition : MethodDef} (read : ofData? .json data = some definition) :
    ofData? .json other = some definition := by
  obtain ⟨name, modifiers, typeParameters, returns, parameters, given, nameRead, modifiersRead,
    typeParametersRead, returnsRead, parametersRead⟩ := ofData?_eq_some_iff.mp read
  obtain ⟨others, otherGiven, fields⟩ := abridged.fields? given
  rcases fields with _ | ⟨nameAbridged, _ | ⟨modifiersAbridged, _ | ⟨typeParametersAbridged,
    _ | ⟨returnsAbridged, _ | ⟨parametersAbridged, _ | _⟩⟩⟩⟩⟩
  refine ofData?_eq_some_iff.mpr ⟨_, _, _, _, _, otherGiven, ?_, ?_, ?_, ?_, ?_⟩
  · exact nameAbridged.required nameRead (.of_noParts rfl) rfl
  · exact modifiersAbridged.default modifiersRead (.of_noParts rfl)
      (List.forall_mem_singleton.mpr rfl)
  · exact typeParametersAbridged.default typeParametersRead
      (.listOf? rfl fun _ _ _ abridged => TypeVariableDef.ofData?_of_abridges abridged)
      (List.forall_mem_singleton.mpr rfl)
  · exact returnsAbridged.default returnsRead (.of_noParts rfl) (List.forall_mem_singleton.mpr rfl)
  · exact parametersAbridged.default parametersRead (.of_noParts rfl)
      (List.forall_mem_singleton.mpr rfl)

theorem isJson_of_abridges {data other : Data} (abridged : shape.Abridges data other)
    (json : data.IsJson) : other.IsJson := by
  refine abridged.isJson (fun name abridges isPart item other => ?_) json
  simp only [shape] at isPart
  split at isPart
  · obtain rfl := Option.some.inj isPart
    exact TypeVariableDef.isJson_of_abridges
  · contradiction

end MethodDef

/-! ## Classes -/

namespace ClassDef

/-- All fields but the name may be left out. -/
def shape : RecordShape where
  fieldNames := fieldNames
  defaults
    | "kind" => TypeKind.classForms
    | "modifiers" | "type_parameters" | "methods" => [.list []]
    | "extends" => [.null]
    | _ => []
  parts
    | "type_parameters" => some TypeVariableDef.shape.Abridges
    | "methods" => some MethodDef.shape.Abridges
    | _ => none

theorem ofData?_eq_some_iff {convention : Data.Convention} {data : Data} {definition : ClassDef} :
    ofData? convention data = some definition ↔
      ∃ name kind modifiers typeParameters extending methods,
        convention.fields? fieldNames data =
          some [name, kind, modifiers, typeParameters, extending, methods] ∧
        name.required Data.string? = some definition.name ∧
        kind.default .class (TypeKind.ofData? convention) = some definition.kind ∧
        modifiers.default [] (Data.listOf? (Modifier.ofData? convention)) =
          some definition.modifiers ∧
        typeParameters.default [] (Data.listOf? (TypeVariableDef.ofData? convention)) =
          some definition.typeParameters ∧
        extending.optional Data.string? = some definition.extending ∧
        methods.default [] (Data.listOf? (MethodDef.ofData? convention)) =
          some definition.methods := by
  rw [ofData?, Option.bind_eq_bind, Option.bind_eq_some_iff]
  constructor
  · rintro ⟨fields, given, read⟩
    split at read
    · simp only [Option.bind_eq_bind, Option.bind_eq_some_iff] at read
      obtain ⟨name, nameRead, kind, kindRead, modifiers, modifiersRead, typeParameters,
        typeParametersRead, extending, extendingRead, methods, methodsRead, read⟩ := read
      obtain rfl := Option.some.inj read
      exact ⟨_, _, _, _, _, _, given, nameRead, kindRead, modifiersRead, typeParametersRead,
        extendingRead, methodsRead⟩
    · contradiction
  · rintro ⟨name, kind, modifiers, typeParameters, extending, methods, given, nameRead, kindRead,
      modifiersRead, typeParametersRead, extendingRead, methodsRead⟩
    refine ⟨_, given, ?_⟩
    simp only [nameRead, kindRead, modifiersRead, typeParametersRead, extendingRead, methodsRead]
    rfl

theorem ofData?_toData (definition : ClassDef) :
    ofData? .json definition.toData = some definition :=
  ofData?_eq_some_iff.mpr ⟨_, _, _, _, _, _, rfl, rfl, definition.kind.ofData?_toData,
    Data.listOf?_map Modifier.ofData?_toData _,
    Data.listOf?_map TypeVariableDef.ofData?_toData _,
    Data.optional_ofString? _, Data.listOf?_map MethodDef.ofData?_toData _⟩

theorem isJson_toData (definition : ClassDef) : definition.toData.IsJson := by
  apply isJson_record
  simp only [List.forall_mem_cons]
  exact ⟨isJson_ofString _, definition.kind.isJson_toData,
    Data.isJson_list_map Modifier.isJson_toData _,
    Data.isJson_list_map TypeVariableDef.isJson_toData _, isJson_ofString? _,
    Data.isJson_list_map MethodDef.isJson_toData _, nofun⟩

theorem ofData?_of_abridges {data other : Data} (abridged : shape.Abridges data other)
    {definition : ClassDef} (read : ofData? .json data = some definition) :
    ofData? .json other = some definition := by
  obtain ⟨name, kind, modifiers, typeParameters, extending, methods, given, nameRead, kindRead,
    modifiersRead, typeParametersRead, extendingRead, methodsRead⟩ := ofData?_eq_some_iff.mp read
  obtain ⟨others, otherGiven, fields⟩ := abridged.fields? given
  rcases fields with _ | ⟨nameAbridged, _ | ⟨kindAbridged, _ | ⟨modifiersAbridged,
    _ | ⟨typeParametersAbridged, _ | ⟨extendingAbridged, _ | ⟨methodsAbridged, _ | _⟩⟩⟩⟩⟩⟩
  refine ofData?_eq_some_iff.mpr ⟨_, _, _, _, _, _, otherGiven, ?_, ?_, ?_, ?_, ?_, ?_⟩
  · exact nameAbridged.required nameRead (.of_noParts rfl) rfl
  · exact kindAbridged.default kindRead (.of_noParts rfl) TypeKind.ofData?_of_mem_classForms
  · exact modifiersAbridged.default modifiersRead (.of_noParts rfl)
      (List.forall_mem_singleton.mpr rfl)
  · exact typeParametersAbridged.default typeParametersRead
      (.listOf? rfl fun _ _ _ abridged => TypeVariableDef.ofData?_of_abridges abridged)
      (List.forall_mem_singleton.mpr rfl)
  · exact extendingAbridged.optional extendingRead rfl (List.forall_mem_singleton.mpr rfl)
  · exact methodsAbridged.default methodsRead
      (.listOf? rfl fun _ _ _ abridged => MethodDef.ofData?_of_abridges abridged)
      (List.forall_mem_singleton.mpr rfl)

theorem isJson_of_abridges {data other : Data} (abridged : shape.Abridges data other)
    (json : data.IsJson) : other.IsJson := by
  refine abridged.isJson (fun name abridges isPart item other => ?_) json
  simp only [shape] at isPart
  split at isPart
  · obtain rfl := Option.some.inj isPart
    exact TypeVariableDef.isJson_of_abridges
  · obtain rfl := Option.some.inj isPart
    exact MethodDef.isJson_of_abridges
  · contradiction

end ClassDef

/-! ## Documents -/

namespace HierarchyDocument

/-- The list of classes may be left out. -/
def shape : RecordShape where
  fieldNames := fieldNames
  defaults
    | "classes" => [.list []]
    | _ => []
  parts
    | "classes" => some ClassDef.shape.Abridges
    | _ => none

theorem ofData?_eq_some_iff {convention : Data.Convention} {data : Data}
    {document : HierarchyDocument} :
    ofData? convention data = some document ↔
      ∃ classes, convention.fields? fieldNames data = some [classes] ∧
        classes.default [] (Data.listOf? (ClassDef.ofData? convention)) =
          some document.classes := by
  rw [ofData?, Option.bind_eq_bind, Option.bind_eq_some_iff]
  constructor
  · rintro ⟨fields, given, read⟩
    split at read
    · obtain ⟨classes, classesRead, read⟩ := Option.bind_eq_some_iff.mp read
      obtain rfl := Option.some.inj read
      exact ⟨_, given, classesRead⟩
    · contradiction
  · rintro ⟨classes, given, classesRead⟩
    refine ⟨_, given, ?_⟩
    simp only [classesRead]
    rfl

theorem ofData?_toData (document : HierarchyDocument) :
    ofData? .json document.toData = some document :=
  ofData?_eq_some_iff.mpr ⟨_, rfl, Data.listOf?_map ClassDef.ofData?_toData _⟩

theorem isJson_toData (document : HierarchyDocument) : document.toData.IsJson := by
  apply isJson_record
  simp only [List.forall_mem_cons]
  exact ⟨Data.isJson_list_map ClassDef.isJson_toData _, nofun⟩

theorem ofData?_of_abridges {data other : Data} (abridged : shape.Abridges data other)
    {document : HierarchyDocument} (read : ofData? .json data = some document) :
    ofData? .json other = some document := by
  obtain ⟨classes, given, classesRead⟩ := ofData?_eq_some_iff.mp read
  obtain ⟨others, otherGiven, fields⟩ := abridged.fields? given
  rcases fields with _ | ⟨classesAbridged, _ | _⟩
  refine ofData?_eq_some_iff.mpr ⟨_, otherGiven, ?_⟩
  exact classesAbridged.default classesRead
    (.listOf? rfl fun _ _ _ abridged => ClassDef.ofData?_of_abridges abridged)
    (List.forall_mem_singleton.mpr rfl)

theorem isJson_of_abridges {data other : Data} (abridged : shape.Abridges data other)
    (json : data.IsJson) : other.IsJson := by
  refine abridged.isJson (fun name abridges isPart item other => ?_) json
  simp only [shape] at isPart
  split at isPart
  · obtain rfl := Option.some.inj isPart
    exact ClassDef.isJson_of_abridges
  · contradiction

/-! ## Texts of documents -/

/-- A text is read as a document if it has a tree that is one. -/
theorem ofJson_eq_ok_iff {source : String} {document : HierarchyDocument} :
    ofJson source = .ok document ↔
      ∃ data, Data.Json.read source = some data ∧ ofData? .json data = some document := by
  rw [← Option.bind_eq_some_iff, ofJson]
  cases (Data.Json.read source).bind (ofData? .json) <;> simp

/-- The JSON texts of a document are read as the document. -/
structure ReadBack (document : HierarchyDocument) : Prop where
  /-- In one line. -/
  compact : ofJson (toJson document) = .ok document
  /-- One item or member a line. -/
  pretty : ofJson (Data.Json.pretty document.toData) = .ok document
  /-- Fields that hold their defaults need not be written. -/
  abridged : ∀ data, shape.Abridges document.toData data →
    ofJson (Data.Json.compact data) = .ok document ∧
      ofJson (Data.Json.pretty data) = .ok document
  /-- Writing the document that a text is read as makes no difference to what becomes of it. -/
  rewritten : ∀ source, ofJson source = .ok document →
    ofJson (toJson document) = ofJson source ∧
      (ofJson (toJson document)).bind (ClassPool.ofDefinitions ·.classes) =
        (ofJson source).bind (ClassPool.ofDefinitions ·.classes)
  /-- Leaving out fields that hold their defaults makes none in any text either. -/
  omission : ∀ source other data otherData, ofJson source = .ok document →
    Data.Json.read source = some data → Data.Json.read other = some otherData →
      shape.Abridges data otherData → ofJson other = .ok document

theorem ofJson_of_read {source : String} {data : Data} {document : HierarchyDocument}
    (read : Data.Json.read source = some data) (isDocument : ofData? .json data = some document) :
    ofJson source = .ok document :=
  ofJson_eq_ok_iff.mpr ⟨data, read, isDocument⟩

/-- All documents survive being written and read. -/
theorem readBack (document : HierarchyDocument) : document.ReadBack where
  compact :=
    ofJson_of_read (Data.Json.read_compact document.isJson_toData) document.ofData?_toData
  pretty := ofJson_of_read (Data.Json.read_pretty document.isJson_toData) document.ofData?_toData
  abridged data abridged := by
    have json := isJson_of_abridges abridged document.isJson_toData
    have isDocument := ofData?_of_abridges abridged document.ofData?_toData
    exact ⟨ofJson_of_read (Data.Json.read_compact json) isDocument,
      ofJson_of_read (Data.Json.read_pretty json) isDocument⟩
  rewritten source read := by
    have same : ofJson (toJson document) = ofJson source :=
      (ofJson_of_read (Data.Json.read_compact document.isJson_toData)
        document.ofData?_toData).trans read.symm
    exact ⟨same, same ▸ rfl⟩
  omission source other data otherData accepted read otherRead abridged := by
    obtain ⟨tree, sourceRead, isDocument⟩ := ofJson_eq_ok_iff.mp accepted
    obtain rfl := Option.some.inj (read.symm.trans sourceRead)
    exact ofJson_of_read otherRead (ofData?_of_abridges abridged isDocument)

/-- An interface with a method of which nothing but the name is told. -/
def service : HierarchyDocument :=
  ⟨[{ name := "a.Service", kind := .interface, methods := [{ name := "run" }] }]⟩

/-- What is left of the interface when the defaults are left out. -/
def serviceAbridged : Data :=
  .record [("classes", .list [.record [("name", .ofString "a.Service"),
    ("kind", .ofString "interface"),
    ("methods", .list [.record [("name", .ofString "run")]])]])]

theorem readBack_service :
    service.ReadBack ∧ shape.Abridges service.toData serviceAbridged ∧
      Data.Json.compact serviceAbridged =
        "\x7b\"classes\":[\x7b\"name\":\"a.Service\",\"kind\":\"interface\"," ++
          "\"methods\":[\x7b\"name\":\"run\"\x7d]\x7d]\x7d" ∧
      ofJson (Data.Json.compact serviceAbridged) = .ok service := by
  have isDefault (value : Data) : value ∈ [value] := List.mem_singleton_self value
  have method : MethodDef.shape.Abridges (MethodDef.toData { name := "run" })
      (.record [("name", .ofString "run")]) :=
    .table (.kept (.same _) (.omitted (isDefault _) (.omitted (isDefault _)
      (.omitted (isDefault _) (.omitted (isDefault _) .nil)))))
  have interface : ClassDef.shape.Abridges
      (ClassDef.toData
        { name := "a.Service", kind := .interface, methods := [{ name := "run" }] })
      (.record [("name", .ofString "a.Service"), ("kind", .ofString "interface"),
        ("methods", .list [.record [("name", .ofString "run")]])]) :=
    .table (.kept (.same _) (.kept (.same _) (.omitted (isDefault _) (.omitted (isDefault _)
      (.omitted (isDefault _) (.kept (.items rfl (.cons method .nil)) .nil))))))
  have abridged : shape.Abridges service.toData serviceAbridged :=
    .table (.kept (.items rfl (.cons interface .nil)) .nil)
  exact ⟨service.readBack, abridged, rfl, (service.readBack.abridged _ abridged).1⟩

end HierarchyDocument

end BridgeMethods
