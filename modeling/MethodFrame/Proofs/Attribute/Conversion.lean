import Mathlib.Tactic.MkIffOfInductiveProp
import MethodFrame.Attribute

-- Attributes and values convert into each other: a value comes back as it was, and an attribute
-- does just when nothing stands in the fields that its type does not select.
namespace MethodFrame

namespace Double

def negativeZero : Double := ⟨0x8000000000000000⟩

theorem isZero_fields {x : Double} :
    x.isZero = true ↔ x.exponentField = 0 ∧ x.fraction = 0 := by
  simp [isZero]

theorem isZero_exact {x : Double} : x.isZero = true ↔ x = zero ∨ x = negativeZero := by
  constructor
  · intro nothing
    obtain ⟨exponent, fraction⟩ := isZero_fields.mp nothing
    obtain ⟨bits⟩ := x
    have small := bits.toNat_lt
    simp only [exponentField, Double.fraction, Nat.pow_eq] at exponent fraction
    simp only [zero, negativeZero, mk.injEq, ← UInt64.toNat_inj, UInt64.toNat_ofNat]
    omega
  · rintro (rfl | rfl) <;> decide

theorem isNaN_of_isZero {x : Double} (nothing : x.isZero = true) : x.isNaN = false := by
  simp [isNaN, (isZero_fields.mp nothing).1]

theorem zero_equals {x : Double} : zero.equals x = true ↔ x = zero ∨ x = negativeZero := by
  rw [← isZero_exact]
  constructor
  · intro same
    simp only [equals, Bool.and_eq_true, Bool.or_eq_true, decide_eq_true_eq] at same
    rcases same.2 with rfl | both
    · decide
    · exact both.2
  · intro nothing
    have zeroZero : zero.isZero = true := by decide
    simp [equals, nothing, zeroZero, isNaN_of_isZero nothing, isNaN_of_isZero zeroZero]

theorem equals_self {x : Double} : x.equals x = true ↔ x.isNaN = false := by
  simp [equals]

end Double

namespace Attribute

theorem value_ofValue (value : Value) : (ofValue value).value = .ok value := by
  cases value <;> rfl

theorem value_error {node : Attribute} :
    (∃ fault, node.value = .error fault) ↔ node.type = .string ∧ node.text = none := by
  unfold value
  cases node.type with
  | string => cases node.text <;> simp
  | _ => simp

def SamePayload (left right : Attribute) : Prop :=
  left.type = right.type ∧ match left.type with
    | .void => True
    | .int | .strongInt => left.integer = right.integer
    | .float => left.real = right.real
    | .string => left.text = right.text

theorem value_exact {left right : Attribute} :
    left.value = right.value ↔ left.SamePayload right := by
  unfold value SamePayload
  cases left.type <;> cases right.type <;> cases left.text <;> cases right.text <;> simp

-- What the fields hold that the type does not select is what a fresh attribute holds there, and a
-- float is one that equals itself.
@[mk_iff canonical_exact]
structure Canonical (node : Attribute) : Prop where
  register : node.register = none
  name : node.name = none
  integer : node.type = .int ∨ node.type = .strongInt ∨ node.integer = 0
  text : node.type = .string ∨ node.text = none
  rest : node.type = .float ∨ node.real = .zero ∨ node.real = .negativeZero
  number : node.type = .float → node.real.isNaN = false

theorem equals_exact {left right : Attribute} : left.equals right = true ↔
    right.register = left.register ∧ right.name = left.name ∧ right.integer = left.integer ∧
      right.text = left.text ∧ left.real.equals right.real = true ∧ right.type = left.type := by
  simp only [equals, Bool.and_eq_true, decide_eq_true_eq]
  constructor
  · rintro ⟨⟨⟨⟨⟨integer, register⟩, real⟩, name⟩, text⟩, typed⟩
    exact ⟨register.symm, name.symm, integer.symm, text.symm, real, typed.symm⟩
  · rintro ⟨register, name, integer, text, real, typed⟩
    exact ⟨⟨⟨⟨⟨integer.symm, register.symm⟩, real⟩, name.symm⟩, text.symm⟩, typed.symm⟩

theorem equals_canonical {node : Attribute} {value : Value} (read : node.value = .ok value) :
    (ofValue value).equals node = true ↔ node.Canonical := by
  obtain ⟨integer, register, real, name, text, type⟩ := node
  rw [canonical_exact, equals_exact]
  cases type with
  | void =>
    cases read
    simp [ofValue, empty, Double.zero_equals]
  | int =>
    cases read
    simp [ofValue, ofInt, empty, Double.zero_equals]
  | float =>
    cases read
    simp [ofValue, ofFloat, empty, Double.equals_self]
  | string =>
    cases text with
    | none => cases read
    | some text =>
      cases read
      simp [ofValue, ofString, empty, Double.zero_equals]
  | strongInt =>
    cases read
    simp [ofValue, ofStrongInt, empty, Double.zero_equals]

theorem conversion_lossless :
    (∀ value, (ofValue value).value = .ok value) ∧
    (∀ node : Attribute, (∃ fault, node.value = .error fault) ↔
      node.type = .string ∧ node.text = none) ∧
    (∀ node value, node.value = .ok value →
      (ofValue value).value = node.value ∧
      (∀ again, (ofValue value).value = .ok again → ofValue again = ofValue value) ∧
      ((ofValue value).equals node = true ↔ node.Canonical)) ∧
    ∀ left right : Attribute, left.value = right.value ↔ left.SamePayload right := by
  refine ⟨value_ofValue, fun node => value_error, fun node value read => ⟨?_, ?_, ?_⟩,
    fun left right => value_exact⟩
  · rw [value_ofValue, read]
  · intro again reread
    rw [value_ofValue] at reread
    rw [Except.ok.inj reread]
  · exact equals_canonical read

end Attribute
end MethodFrame
