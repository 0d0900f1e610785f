import BridgeMethods.Error
import BridgeMethods.Text.CharClass

/-!
# Method sorts

The closed set of sorts that a method can belong to, with their three spellings: the name in
settings and on the command line, the key in written reports and the label of the matcher.
-/

namespace BridgeMethods

/-- A sort of methods. -/
inductive MethodSort where
  /-- Neither a constructor nor the type initializer. -/
  | method
  | constructor
  | typeInitializer
  /-- A virtual method that a subtype may override. -/
  | overridable
  /-- A bridge that exposes an inherited method again with wider visibility. -/
  | visibilityBridge
  /-- A bridge from an erased signature to a specialized override. -/
  | typeVariableBridge
  /-- A bridge to a sibling with a narrower return type. -/
  | returnTypeBridge
  /-- A non-abstract instance method of an interface. -/
  | defaultMethod
  deriving DecidableEq, Repr

namespace MethodSort

/-- All sorts, in the order in which they are listed. -/
def all : List MethodSort :=
  [.method, .constructor, .typeInitializer, .overridable, .visibilityBridge,
    .typeVariableBridge, .returnTypeBridge, .defaultMethod]

theorem mem_all (s : MethodSort) : s ∈ all := by
  cases s <;> decide

/-- The name in settings and on the command line. -/
def name : MethodSort → String
  | .method => "method"
  | .constructor => "constructor"
  | .typeInitializer => "type-initializer"
  | .overridable => "overridable"
  | .visibilityBridge => "visibility-bridge"
  | .typeVariableBridge => "type-variable-bridge"
  | .returnTypeBridge => "return-type-bridge"
  | .defaultMethod => "default-method"

instance : ToString MethodSort := ⟨name⟩

/-- The key in written reports: the name with underscores. -/
def key : MethodSort → String
  | .method => "method"
  | .constructor => "constructor"
  | .typeInitializer => "type_initializer"
  | .overridable => "overridable"
  | .visibilityBridge => "visibility_bridge"
  | .typeVariableBridge => "type_variable_bridge"
  | .returnTypeBridge => "return_type_bridge"
  | .defaultMethod => "default_method"

/-- The label of the matcher of a sort. -/
def label : MethodSort → String
  | .method => "isMethod()"
  | .constructor => "isConstructor()"
  | .typeInitializer => "isTypeInitializer()"
  | .overridable => "isOverridable()"
  | .visibilityBridge => "isVisibilityBridge()"
  | .typeVariableBridge => "isTypeVariableBridge()"
  | .returnTypeBridge => "isReturnTypeBridge()"
  | .defaultMethod => "isDefaultMethod()"

/-- Whether a sort tells why a bridge exists. -/
def isBridgeSort : MethodSort → Bool
  | .visibilityBridge | .typeVariableBridge | .returnTypeBridge => true
  | _ => false

/-- The form in which names are compared: trimmed, in lower case and with hyphens. -/
def normalize (text : String) : String :=
  String.ofList ((Text.lowerAscii (Text.trim text)).toList.map fun c => if c = '_' then '-' else c)

/-- The sort that a text names, with hyphens or underscores and in any case. -/
def parse (text : String) : Except Error MethodSort :=
  match all.find? (·.name = normalize text) with
  | some s => .ok s
  | none => .error (.unknownSort text)

theorem normalize_name (s : MethodSort) : normalize s.name = s.name := by
  cases s <;> decide

theorem find?_name (s : MethodSort) : all.find? (·.name = s.name) = some s := by
  cases s <;> decide

/-- A sort is read back from its name. -/
theorem parse_name (s : MethodSort) : parse s.name = .ok s := by
  simp only [parse, normalize_name, find?_name]

/-- The sorts of a list in the order of `all`, each once. -/
def inOrder (sorts : List MethodSort) : List MethodSort :=
  all.filter (· ∈ sorts)

theorem mem_inOrder {s : MethodSort} {sorts : List MethodSort} :
    s ∈ inOrder sorts ↔ s ∈ sorts := by
  simp [inOrder, mem_all]

/-- One line for each sort: its name in a column, and its label. -/
def listing : String :=
  String.join (all.map fun s => Text.padRight 22 s.name ++ " " ++ s.label ++ "\n")

end MethodSort

end BridgeMethods
