import MethodFrame.Text.Blank
import MethodFrame.Typing
import MethodFrame.Vocabulary

-- Operator applications as users write them: `left operator right` or `operator operand`, in words.
namespace MethodFrame

structure Application where
  operator : Operator
  operands : List OperandType
deriving DecidableEq, Repr

namespace Application

-- The words before the first operator word, that operator, and the words after it.
def split? : List String → Option (List String × Operator × List String)
  | [] => none
  | word :: rest => match Operator.ofSymbol? word with
    | some operator => some ([], operator, rest)
    | none => match split? rest with
      | some (left, operator, right) => some (word :: left, operator, right)
      | none => none

-- Only the left side may be empty. Both sides are read as type names with single
-- spaces, so a second operator word ends up in the name on the right.
def read (text : String) : Except Fault Application :=
  match split? (Text.words text) with
  | none => .error (.unknownOperator text)
  | some (left, operator, right) =>
    if left = [] then
      match OperandType.read (Text.joined right) with
      | .error fault => .error fault
      | .ok operand => .ok ⟨operator, [operand]⟩
    else match OperandType.read (Text.joined left) with
      | .error fault => .error fault
      | .ok leftType => match OperandType.read (Text.joined right) with
        | .error fault => .error fault
        | .ok rightType => .ok ⟨operator, [leftType, rightType]⟩

def typeOf (application : Application) : Except Fault OperandType :=
  match application.operands with
  | [operand] => Typing.unary application.operator operand
  | [left, right] => Typing.binary application.operator left right
  | _ => .error (.unplaced "unexpected operand count")

def check (text : String) : Except Fault OperandType :=
  match read text with
  | .error fault => .error fault
  | .ok application => application.typeOf

end Application
end MethodFrame
