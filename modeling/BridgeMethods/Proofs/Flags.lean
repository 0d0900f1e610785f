import BridgeMethods.Modifier
import Mathlib.Data.Nat.Bitwise

/-!
# Access flags as sets of modifiers

Each modifier has a bit of its own.  So the flags of a list of modifiers have just the modifiers of
the list, in whatever order and however often it names them.
-/

namespace BridgeMethods

/-- The place of the bit of a modifier in the access flags. -/
def Modifier.place : Modifier → Nat
  | .public => 0
  | .private => 1
  | .protected => 2
  | .static => 3
  | .final => 4
  | .bridge => 6
  | .abstract => 10
  | .synthetic => 12

theorem Modifier.toNat_bit (m : Modifier) : m.bit.toNat = 2 ^ m.place := by
  cases m <;> rfl

theorem Modifier.find?_place (m : Modifier) : all.find? (·.place = m.place) = some m := by
  cases m <;> rfl

theorem Modifier.place_injective {m n : Modifier} (same : m.place = n.place) : m = n := by
  have found := m.find?_place
  rw [same, n.find?_place] at found
  exact (Option.some.inj found).symm

namespace AccessFlags

theorem has_eq_testBit (flags : AccessFlags) (m : Modifier) :
    flags.has m = flags.bits.toNat.testBit m.place := by
  rw [Bool.eq_iff_iff, has, contains, ofModifier, beq_iff_eq, ← UInt16.toNat_inj, UInt16.toNat_and,
    m.toNat_bit, Nat.and_two_pow]
  cases flags.bits.toNat.testBit m.place with
  | false => simp [(Nat.two_pow_pos m.place).ne]
  | true => simp

theorem has_empty (m : Modifier) : empty.has m = false := by
  cases m <;> rfl

theorem has_union_ofModifier (flags : AccessFlags) (added m : Modifier) :
    (flags ∪ ofModifier added).has m = (flags.has m || decide (added = m)) := by
  have bits : (flags ∪ ofModifier added).bits = flags.bits ||| added.bit := rfl
  rw [has_eq_testBit, has_eq_testBit, bits, UInt16.toNat_or, Nat.testBit_or, added.toNat_bit,
    Nat.testBit_two_pow]
  congr 1
  exact decide_eq_decide.mpr ⟨Modifier.place_injective, congrArg Modifier.place⟩

theorem has_ofModifiers (modifiers : List Modifier) (m : Modifier) :
    (ofModifiers modifiers).has m = decide (m ∈ modifiers) := by
  have each (flags : AccessFlags) :
      (modifiers.foldl (fun flags added => flags ∪ ofModifier added) flags).has m =
        (flags.has m || decide (m ∈ modifiers)) := by
    induction modifiers generalizing flags with
    | nil => simp
    | cons added rest ih =>
        rw [List.foldl_cons, ih, has_union_ofModifier]
        simp [Bool.or_assoc, eq_comm]
  rw [ofModifiers, each, has_empty, Bool.false_or]

theorem has_ofModifiers_congr {modifiers others : List Modifier} {m : Modifier}
    (same : m ∈ modifiers ↔ m ∈ others) :
    (ofModifiers modifiers).has m = (ofModifiers others).has m := by
  rw [has_ofModifiers, has_ofModifiers]
  exact decide_eq_decide.mpr same

/-- The modifiers of the flags of a list are those of the list, each once and in a fixed order. -/
theorem modifiers_ofModifiers (modifiers : List Modifier) :
    (ofModifiers modifiers).modifiers = Modifier.all.filter (· ∈ modifiers) := by
  rw [AccessFlags.modifiers, funext (has_ofModifiers modifiers)]

end AccessFlags

end BridgeMethods
