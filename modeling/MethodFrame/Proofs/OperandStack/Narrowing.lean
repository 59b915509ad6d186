import Mathlib.Order.Defs.PartialOrder
import MethodFrame.Proofs.OperandStack.Matching

-- Numbers ordered by width: strong integers are the narrowest and floats the widest. A program that
-- is accepted stays accepted when it pushes narrower types, and its results get no wider.
namespace MethodFrame

namespace OperandType

-- The order of the widths. A type that is no number is comparable to itself only.
def narrower : OperandType → OperandType → Bool
  | .strongInt, .int | .strongInt, .float | .int, .float => true
  | type, other => type = other

instance : PartialOrder OperandType where
  le type other := narrower type other = true
  le_refl type := by cases type <;> rfl
  le_trans type middle other := by cases type <;> cases middle <;> cases other <;> decide
  le_antisymm type other := by cases type <;> cases other <;> decide

instance (type other : OperandType) : Decidable (type ≤ other) :=
  inferInstanceAs (Decidable (narrower type other = true))

-- All that typing asks of an operand. Being a number or a text does not depend on the width, being
-- an integer and being strong pass on to the narrower type, being a float comes from it.
theorem asked_narrower {type other : OperandType} (narrow : other ≤ type) :
    (type.isNumeric = other.isNumeric ∧ (type = .string ↔ other = .string)) ∧
      (type.isIntegral = true → other.isIntegral = true) ∧
      (type = .strongInt → other = .strongInt) ∧ (other = .float → type = .float) := by
  revert narrow
  cases type <;> cases other <;> decide

end OperandType

namespace Typing
open OperandType

variable {left right otherLeft otherRight type : OperandType}

theorem integral_le_float (left right : OperandType) : integral left right ≤ .float := by
  unfold integral
  split <;> decide

theorem integral_narrower (lefts : otherLeft ≤ left) (rights : otherRight ≤ right) :
    integral otherLeft otherRight ≤ integral left right := by
  by_cases strong : left = .strongInt ∧ right = .strongInt
  · have others : otherLeft = .strongInt ∧ otherRight = .strongInt :=
      ⟨(asked_narrower lefts).2.2.1 strong.1, (asked_narrower rights).2.2.1 strong.2⟩
    rw [integral, integral, if_pos strong, if_pos others]
  · rw [integral, integral, if_neg strong]
    split <;> decide

theorem arithmetic_narrower {operator : Operator} (lefts : otherLeft ≤ left)
    (rights : otherRight ≤ right) (typed : arithmetic? operator left right = some type) :
    ∃ result, arithmetic? operator otherLeft otherRight = some result ∧ result ≤ type := by
  obtain ⟨⟨leftNumeric, _⟩, leftIntegral, _, leftFloat⟩ := asked_narrower lefts
  obtain ⟨⟨rightNumeric, _⟩, rightIntegral, _, rightFloat⟩ := asked_narrower rights
  simp only [arithmetic?] at typed ⊢
  by_cases rest : operator = .mod
  · rw [if_pos rest, Option.ite_none_right_eq_some] at typed
    obtain ⟨integers, yielded⟩ := typed
    cases yielded
    rw [if_pos rest, if_pos ⟨leftIntegral integers.1, rightIntegral integers.2⟩]
    exact ⟨_, rfl, integral_narrower lefts rights⟩
  · rw [if_neg rest, leftNumeric, rightNumeric, Option.ite_none_left_eq_some, not_not] at typed
    obtain ⟨numbers, yielded⟩ := typed
    rw [if_neg rest, if_neg (not_not.mpr numbers)]
    by_cases float : left = .float ∨ right = .float
    · rw [if_pos float] at yielded
      cases yielded
      split
      · exact ⟨_, rfl, le_refl _⟩
      · exact ⟨_, rfl, integral_le_float _ _⟩
    · have others : ¬(otherLeft = .float ∨ otherRight = .float) :=
        fun either => float (either.imp leftFloat rightFloat)
      rw [if_neg float] at yielded
      cases yielded
      rw [if_neg others]
      exact ⟨_, rfl, integral_narrower lefts rights⟩

theorem comparable_narrower (operator : Operator) (lefts : otherLeft ≤ left)
    (rights : otherRight ≤ right) :
    comparable operator left right = comparable operator otherLeft otherRight := by
  obtain ⟨leftNumeric, leftString⟩ := (asked_narrower lefts).1
  obtain ⟨rightNumeric, rightString⟩ := (asked_narrower rights).1
  simp only [comparable, leftNumeric, leftString, rightNumeric, rightString]

theorem result_narrower {operator : Operator} (lefts : otherLeft ≤ left)
    (rights : otherRight ≤ right) (typed : result? operator left right = some type) :
    ∃ result, result? operator otherLeft otherRight = some result ∧ result ≤ type := by
  cases kind : operator.category with
  | arithmetic =>
    simp only [result?, kind] at typed ⊢
    exact arithmetic_narrower lefts rights typed
  | relational =>
    simp only [result?, kind, comparable_narrower operator lefts rights] at typed ⊢
    exact ⟨type, typed, le_refl _⟩
  | logical =>
    simp only [result?, kind, Option.ite_none_right_eq_some] at typed ⊢
    obtain ⟨integers, yielded⟩ := typed
    have others := And.intro ((asked_narrower lefts).2.1 integers.1)
      ((asked_narrower rights).2.1 integers.2)
    exact ⟨type, ⟨others, yielded⟩, le_refl _⟩
  | nothing =>
    simp only [result?, kind] at typed
    cases typed

theorem keeps_narrower : Keeps (· ≥ ·) := by
  constructor
  · intro operator operand other type narrow typed
    obtain ⟨one, integral, rfl⟩ := unary_exact.mp typed
    exact ⟨.int, unary_exact.mpr ⟨one, (asked_narrower narrow).2.1 integral, rfl⟩, le_refl _⟩
  · intro operator left right otherLeft otherRight type lefts rights typed
    obtain ⟨two, found⟩ := binary_exact.mp typed
    obtain ⟨result, yielded, narrow⟩ := result_narrower lefts rights found
    exact ⟨result, binary_exact.mpr ⟨two, yielded⟩, narrow⟩

end Typing

namespace OperandStack

theorem narrowing_accepted {first second : List Call}
    (calls : List.Forall₂ (Call.Related (· ≥ ·)) first second)
    (accepted : ∀ record ∈ Run.records perform empty first, ∃ answer, record.answer = .ok answer) :
    List.Forall₂ (fun one other => Accept (· ≥ ·) one.answer other.answer)
        (Run.records perform empty first) (Run.records perform empty second) ∧
      ∀ place, Related (· ≥ ·) (after (first.take place)) (after (second.take place)) ∧
        (after (first.take place)).depth = (after (second.take place)).depth := by
  have start : Related (· ≥ ·) empty empty := ⟨.nil, rfl⟩
  obtain ⟨answers, states⟩ :=
    start.run_accepted Typing.keeps_narrower calls empty_bounded empty_bounded accepted
  exact ⟨answers, fun place => ⟨states place, (states place).depth⟩⟩

-- A float sum narrows to a strong integer, and both sums can be compared with what follows.
theorem narrowing_accepted_sum :
    List.Forall₂ (Call.Related (· ≥ ·))
      [.push .int, .push .float, .apply .add, .push .int, .apply .lt]
      [.push .strongInt, .push .strongInt, .apply .add, .push .int, .apply .lt] ∧
    (∀ record ∈ Run.records perform empty
      [.push .int, .push .float, .apply .add, .push .int, .apply .lt],
      ∃ answer, record.answer = .ok answer) ∧
    List.Forall₂ (fun one other => Accept (· ≥ ·) one.answer other.answer)
      (Run.records perform empty [.push .int, .push .float, .apply .add, .push .int, .apply .lt])
      (Run.records perform empty
        [.push .strongInt, .push .strongInt, .apply .add, .push .int, .apply .lt]) := by
  have calls : List.Forall₂ (Call.Related (· ≥ ·))
      [.push .int, .push .float, .apply .add, .push .int, .apply .lt]
      [.push .strongInt, .push .strongInt, .apply .add, .push .int, .apply .lt] :=
    .cons (.push (by decide)) (.cons (.push (by decide)) (.cons (.apply .add)
      (.cons (.push (by decide)) (.cons (.apply .lt) .nil))))
  have accepted : ∀ record ∈ Run.records perform empty
      [.push .int, .push .float, .apply .add, .push .int, .apply .lt],
      ∃ answer, record.answer = .ok answer := by
    simp only [Run.records, List.forall_mem_cons]
    exact ⟨⟨_, rfl⟩, ⟨_, rfl⟩, ⟨_, rfl⟩, ⟨_, rfl⟩, ⟨_, rfl⟩, by simp⟩
  exact ⟨calls, accepted, (narrowing_accepted calls accepted).1⟩

end OperandStack
end MethodFrame
