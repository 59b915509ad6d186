import MethodFrame.Expr
import MethodFrame.Journal

-- The operand stack of a method, known by the type of each entry, with the largest depth it had.
namespace MethodFrame

-- Entries stand bottom first, so the top is the last one.
structure OperandStack where
  entries : List OperandType
  maxDepth : Nat
deriving DecidableEq, Repr

namespace OperandStack

def empty : OperandStack := ⟨[], 0⟩

def depth (stack : OperandStack) : Nat := stack.entries.length

def push (stack : OperandStack) (type : OperandType) : Outcome OperandStack Unit :=
  if frameLimit ≤ stack.depth then .refuse stack (.stackOverflow frameLimit)
  else
    let entries := stack.entries ++ [type]
    .accept () ⟨entries, max stack.maxDepth entries.length⟩ (.pushed type entries.length)

def pop (stack : OperandStack) : Outcome OperandStack OperandType :=
  match stack.entries.getLast? with
  | none => .refuse stack .stackUnderflow
  | some type => .quiet type ⟨stack.entries.dropLast, stack.maxDepth⟩

def peek (stack : OperandStack) : Option OperandType := stack.entries.getLast?

def resultOf (operator : Operator) : List OperandType → Except Fault OperandType
  | [left, right] => Typing.binary operator left right
  | [operand] => Typing.unary operator operand
  | _ => .error (.unknownOperator operator.display)

-- The operands stay until the check succeeds. Only then are they taken off, and
-- the result goes on like any other push.
def apply (stack : OperandStack) (operator : Operator) : Outcome OperandStack OperandType :=
  if stack.depth < operator.arity then .refuse stack .stackUnderflow
  else
    let base := stack.depth - operator.arity
    match resultOf operator (stack.entries.drop base) with
    | .error fault => .refuse stack fault
    | .ok type =>
      (push ⟨stack.entries.take base, stack.maxDepth⟩ type).map (fun _ => type)

def execute (stack : OperandStack) : Instruction → Outcome OperandStack Unit
  | .push type => stack.push type
  | .apply operator => (stack.apply operator).map (fun _ => ())

def run (stack : OperandStack) : List Instruction → Outcome OperandStack Unit
  | [] => .quiet () stack
  | instruction :: rest =>
    let first := stack.execute instruction
    match first.answer with
    | .error fault => ⟨.error fault, first.state, first.events⟩
    | .ok () =>
      let later := first.state.run rest
      ⟨later.answer, later.state, first.events ++ later.events⟩

end OperandStack
end MethodFrame
