import MethodFrame.Proofs.OperandStack.Matching

-- Programs that push types with the same descriptors are accepted and refused alike.
namespace MethodFrame

namespace OperandType

def SameDescriptor (type other : OperandType) : Prop := type.descriptor = other.descriptor

theorem same_of_descriptor {type other : OperandType} (same : SameDescriptor type other) :
    type.isIntegral = other.isIntegral ∧ type.isNumeric = other.isNumeric ∧
      (type = .float ↔ other = .float) ∧ (type = .string ↔ other = .string) := by
  unfold SameDescriptor at same
  revert same
  cases type <;> cases other <;> decide

end OperandType

namespace Typing
open OperandType

variable {left right otherLeft otherRight : OperandType}

theorem integral_descriptor (left right : OperandType) : (integral left right).descriptor = "I" := by
  unfold integral
  split <;> rfl

theorem arithmetic_descriptor (operator : Operator) (lefts : SameDescriptor left otherLeft)
    (rights : SameDescriptor right otherRight) :
    (arithmetic? operator left right).map OperandType.descriptor =
      (arithmetic? operator otherLeft otherRight).map OperandType.descriptor := by
  obtain ⟨leftIntegral, leftNumeric, leftFloat, _⟩ := same_of_descriptor lefts
  obtain ⟨rightIntegral, rightNumeric, rightFloat, _⟩ := same_of_descriptor rights
  simp only [arithmetic?, leftIntegral, leftNumeric, leftFloat, rightIntegral, rightNumeric,
    rightFloat, apply_ite (Option.map OperandType.descriptor), Option.map_some,
    integral_descriptor]

theorem comparable_descriptor (operator : Operator) (lefts : SameDescriptor left otherLeft)
    (rights : SameDescriptor right otherRight) :
    comparable operator left right = comparable operator otherLeft otherRight := by
  obtain ⟨_, leftNumeric, _, leftString⟩ := same_of_descriptor lefts
  obtain ⟨_, rightNumeric, _, rightString⟩ := same_of_descriptor rights
  simp only [comparable, leftNumeric, leftString, rightNumeric, rightString]

theorem result_descriptor (operator : Operator) (lefts : SameDescriptor left otherLeft)
    (rights : SameDescriptor right otherRight) :
    (result? operator left right).map OperandType.descriptor =
      (result? operator otherLeft otherRight).map OperandType.descriptor := by
  have leftIntegral := (same_of_descriptor lefts).1
  have rightIntegral := (same_of_descriptor rights).1
  cases kind : operator.category with
  | arithmetic => simp only [result?, kind, arithmetic_descriptor operator lefts rights]
  | relational => simp only [result?, kind, comparable_descriptor operator lefts rights]
  | logical => simp only [result?, kind, leftIntegral, rightIntegral]
  | nothing => simp only [result?, kind]

theorem keeps_descriptor : Keeps SameDescriptor := by
  constructor
  · intro operator operand other type same typed
    obtain ⟨one, integral, rfl⟩ := unary_exact.mp typed
    rw [(same_of_descriptor same).1] at integral
    exact ⟨.int, unary_exact.mpr ⟨one, integral, rfl⟩, rfl⟩
  · intro operator left right otherLeft otherRight type lefts rights typed
    obtain ⟨two, found⟩ := binary_exact.mp typed
    have results := result_descriptor operator lefts rights
    rw [found, Option.map_some] at results
    obtain ⟨result, yielded, same⟩ := Option.map_eq_some_iff.mp results.symm
    exact ⟨result, binary_exact.mpr ⟨two, yielded⟩, same.symm⟩

end Typing

namespace OperandStack
open OperandType

theorem descriptors_decide {first second : List Call}
    (calls : List.Forall₂ (Call.Related SameDescriptor) first second) :
    List.Forall₂ (fun one other => Agree SameDescriptor one.answer other.answer)
        (Run.records perform empty first) (Run.records perform empty second) ∧
      ∀ place, Related SameDescriptor (after (first.take place)) (after (second.take place)) ∧
        (after (first.take place)).depth = (after (second.take place)).depth := by
  have start : Related SameDescriptor empty empty := ⟨.nil, rfl⟩
  obtain ⟨answers, states⟩ :=
    start.run Typing.keeps_descriptor Eq.symm calls empty_bounded empty_bounded
  exact ⟨answers, fun place => ⟨states place, (states place).depth⟩⟩

-- The sums differ, a strong integer here and an integer there, and both programs are then refused
-- for the operand that is missing.
theorem descriptors_decide_sum :
    List.Forall₂ (Call.Related SameDescriptor)
      [.push .int, .push .strongInt, .apply .add, .apply .mod]
      [.push .strongInt, .push .strongInt, .apply .add, .apply .mod] ∧
    List.Forall₂ (fun one other => Agree SameDescriptor one.answer other.answer)
      (Run.records perform empty [.push .int, .push .strongInt, .apply .add, .apply .mod])
      (Run.records perform empty [.push .strongInt, .push .strongInt, .apply .add, .apply .mod]) := by
  have calls : List.Forall₂ (Call.Related SameDescriptor)
      [.push .int, .push .strongInt, .apply .add, .apply .mod]
      [.push .strongInt, .push .strongInt, .apply .add, .apply .mod] :=
    .cons (.push rfl) (.cons (.push rfl) (.cons (.apply .add) (.cons (.apply .mod) .nil)))
  exact ⟨calls, (descriptors_decide calls).1⟩

end OperandStack
end MethodFrame
