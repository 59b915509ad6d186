import MethodFrame.Proofs.Application.Grammar
import MethodFrame.Proofs.OperandStack.Transition

-- An application as a text and as steps on an operand stack: what the one is told, so is the other.
namespace MethodFrame

theorem OperandType.words_some (type : OperandType) : Text.words type.name ≠ [] := by
  cases type <;> decide

theorem Text.joined_name (word : String) (type : OperandType) :
    joined (word :: words type.name) = joined [word, type.name] := by
  rw [joined, String.intercalate_cons_of_ne_nil type.words_some]
  change word ++ " " ++ joined (words type.name) = _
  rw [type.joined_words, joined, String.intercalate_cons_cons, String.intercalate_singleton]

namespace OperandStack

theorem reaches_push {stack : OperandStack} (types : List OperandType)
    (room : stack.depth + types.length ≤ frameLimit) :
    ∃ loaded, stack.Reaches (types.map .push) loaded ∧ loaded.entries = stack.entries ++ types := by
  induction types generalizing stack with
  | nil => exact ⟨stack, ⟨rfl, rfl⟩, (List.append_nil _).symm⟩
  | cons type rest ih =>
    rw [List.length_cons] at room
    have first : stack.Reaches [.push type] (stack.put stack.entries type) :=
      .step (push_room (by omega) type)
    have grown : (stack.put stack.entries type).depth = stack.depth + 1 := stack.depth_put _ _
    obtain ⟨loaded, others, entries⟩ := @ih (stack.put stack.entries type) (by omega)
    refine ⟨loaded, first.append others, ?_⟩
    rw [entries, put, List.append_assoc]
    rfl

end OperandStack

namespace Application

def spelled (application : Application) : String :=
  match application.operands with
  | left :: right :: more =>
    Text.joined (left.name :: application.operator.symbol :: (right :: more).map OperandType.name)
  | few => Text.joined (application.operator.symbol :: few.map OperandType.name)

theorem read_spelled {operator : Operator} (present : operator ≠ .none)
    {operands : List OperandType} (count : operands.length = operator.arity) :
    read (spelled ⟨operator, operands⟩) = .ok ⟨operator, operands⟩ := by
  rcases OperandStack.operands_cases present count with ⟨operand, rfl⟩ | ⟨left, right, rfl⟩
  · have line : spelled ⟨operator, [operand]⟩ =
        Text.joined (operator.symbol :: Text.words operand.name) :=
      (Text.joined_name operator.symbol operand).symm
    rw [line]
    exact read_phrase (.before present) (Text.joined_written _)
  · have line : spelled ⟨operator, [left, right]⟩ =
        Text.joined (Text.words left.name ++ operator.symbol :: Text.words right.name) :=
      calc Text.joined [left.name, operator.symbol, right.name]
          = left.name ++ " " ++ Text.joined [operator.symbol, right.name] :=
            String.intercalate_cons_cons
        _ = Text.joined (Text.words left.name) ++ " " ++
              Text.joined (operator.symbol :: Text.words right.name) := by
            rw [left.joined_words, Text.joined_name]
        _ = Text.joined (Text.words left.name ++ operator.symbol :: Text.words right.name) :=
            (String.intercalate_append_of_ne_nil left.words_some (List.cons_ne_nil _ _)).symm
    rw [line]
    exact read_phrase (.between present) (Text.joined_written _)

theorem check_read {text : String} {application : Application}
    (accepted : read text = .ok application) : check text = application.typeOf := by
  rw [check, accepted]

theorem typeOf_resultOf {operator : Operator} (present : operator ≠ .none)
    {operands : List OperandType} (count : operands.length = operator.arity) :
    typeOf ⟨operator, operands⟩ = OperandStack.resultOf operator operands := by
  rcases OperandStack.operands_cases present count with ⟨operand, rfl⟩ | ⟨left, right, rfl⟩ <;> rfl

theorem typeOf_mismatch {operator : Operator} {operands : List OperandType} {parts : List String}
    (phrase : Phrase ⟨operator, operands⟩ parts) (other : operands.length ≠ operator.arity) :
    typeOf ⟨operator, operands⟩ =
      .error (.arityMismatch operator operator.arity operands.length) := by
  cases phrase with
  | before present => exact Typing.unary_mismatch other.symm _
  | between present => exact Typing.binary_mismatch other.symm _ _

theorem check_stack (calls : List OperandStack.Call) :
    (∀ text operator operands, read text = .ok ⟨operator, operands⟩ →
      (operands.length = operator.arity →
        (OperandStack.after calls).depth + operands.length ≤ frameLimit →
        ∃ loaded, (OperandStack.after calls).Reaches (operands.map .push) loaded ∧
          (loaded.apply operator).answer = check text) ∧
      (operands.length ≠ operator.arity →
        check text = .error (.arityMismatch operator operator.arity operands.length))) ∧
    ∀ operator, operator ≠ .none → operator.arity ≤ (OperandStack.after calls).depth →
      ∃ below operands, (OperandStack.after calls).entries = below ++ operands ∧
        operands.length = operator.arity ∧
        ((OperandStack.after calls).apply operator).answer =
          check (spelled ⟨operator, operands⟩) := by
  have bounded := OperandStack.after_bounded calls
  refine ⟨fun text operator operands accepted => ⟨fun count room => ?_, fun other => ?_⟩, ?_⟩
  · have present := (phrase_read accepted).present
    obtain ⟨loaded, reached, entries⟩ := OperandStack.reaches_push operands room
    have filled : loaded.Bounded := by
      rw [OperandStack.Bounded, OperandStack.depth, entries, List.length_append]
      exact room
    refine ⟨loaded, reached, ?_⟩
    rw [OperandStack.apply_answer filled entries count, check_read accepted,
      typeOf_resultOf present count]
  · rw [check_read accepted, typeOf_mismatch (phrase_read accepted) other]
  · intro operator present enough
    obtain ⟨below, operands, entries, count⟩ := OperandStack.operands_split enough
    refine ⟨below, operands, entries, count, ?_⟩
    rw [OperandStack.apply_answer bounded entries count, check_read (read_spelled present count),
      typeOf_resultOf present count]

end Application
end MethodFrame
