/-!
# Modifiers and access flags

A modifier is what a definition writes in front of a class or a method.  A class file stores the
modifiers as bits of one 16-bit word, the access flags.  The bits are those of the class-file
format; bits that belong to no modifier are kept but never named.
-/

namespace BridgeMethods

/-- A modifier of a class or a method, as a definition writes it. -/
inductive Modifier where
  | «public»
  | «protected»
  | «private»
  | static
  | final
  | abstract
  | bridge
  | synthetic
  deriving DecidableEq, Repr

namespace Modifier

/-- All modifiers, in the order in which they are listed. -/
def all : List Modifier :=
  [.public, .protected, .private, .static, .final, .abstract, .bridge, .synthetic]

/-- The word that denotes a modifier. -/
def name : Modifier → String
  | .public => "public"
  | .protected => "protected"
  | .private => "private"
  | .static => "static"
  | .final => "final"
  | .abstract => "abstract"
  | .bridge => "bridge"
  | .synthetic => "synthetic"

instance : ToString Modifier := ⟨name⟩

/-- The modifier that a word denotes. -/
def ofName? (word : String) : Option Modifier :=
  all.find? (·.name = word)

/-- The bit of a modifier among the access flags. -/
def bit : Modifier → UInt16
  | .public => 0x0001
  | .private => 0x0002
  | .protected => 0x0004
  | .static => 0x0008
  | .final => 0x0010
  | .bridge => 0x0040
  | .abstract => 0x0400
  | .synthetic => 0x1000

theorem mem_all (m : Modifier) : m ∈ all := by
  cases m <;> decide

theorem ofName?_name (m : Modifier) : ofName? m.name = some m := by
  cases m <;> decide

end Modifier

/-- The access flags of a class or a method. -/
structure AccessFlags where
  bits : UInt16
  deriving DecidableEq, Repr

namespace AccessFlags

/-- No flag set. -/
def empty : AccessFlags := ⟨0⟩

/-- The flags that are set in one of two words. -/
def union (a b : AccessFlags) : AccessFlags := ⟨a.bits ||| b.bits⟩

instance : Union AccessFlags := ⟨union⟩

/-- Whether every flag of the second word is set in the first. -/
def contains (flags part : AccessFlags) : Bool :=
  flags.bits &&& part.bits == part.bits

/-- The flags of one modifier. -/
def ofModifier (m : Modifier) : AccessFlags := ⟨m.bit⟩

/-- Whether the bit of a modifier is set. -/
def has (flags : AccessFlags) (m : Modifier) : Bool :=
  flags.contains (ofModifier m)

/-- The flags of a list of modifiers; order and repetition do not matter. -/
def ofModifiers (modifiers : List Modifier) : AccessFlags :=
  modifiers.foldl (fun flags m => flags ∪ ofModifier m) empty

/-- The modifiers whose bits are set, in the order of `Modifier.all`. -/
def modifiers (flags : AccessFlags) : List Modifier :=
  Modifier.all.filter flags.has

end AccessFlags

end BridgeMethods
