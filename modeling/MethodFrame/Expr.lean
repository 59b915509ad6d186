import MethodFrame.Typing

-- Expression trees: typed by recursion, and laid out in postorder as the steps of an operand stack.
namespace MethodFrame

-- An inner node may carry any operator: that the operators fit their operands is `Expr.WellFormed`,
-- and that the types do is `Expr.infer`.
inductive Expr where
  | leaf (type : OperandType)
  | unary (operator : Operator) (operand : Expr)
  | binary (operator : Operator) (left right : Expr)
deriving DecidableEq, Repr

inductive Instruction where
  | push (type : OperandType)
  | apply (operator : Operator)
deriving DecidableEq, Repr

namespace Expr

def WellFormed : Expr → Prop
  | .leaf _ => True
  | .unary operator operand => operator.arity = 1 ∧ operand.WellFormed
  | .binary operator left right => operator.arity = 2 ∧ left.WellFormed ∧ right.WellFormed

def infer : Expr → Except Fault OperandType
  | .leaf type => .ok type
  | .unary operator operand =>
    match operand.infer with
    | .error fault => .error fault
    | .ok type => Typing.unary operator type
  | .binary operator left right =>
    match left.infer with
    | .error fault => .error fault
    | .ok leftType => match right.infer with
      | .error fault => .error fault
      | .ok rightType => Typing.binary operator leftType rightType

-- How many entries the evaluation needs at most. The right operand waits on the left one's result.
def need : Expr → Nat
  | .leaf _ => 1
  | .unary _ operand => operand.need
  | .binary _ left right => max left.need (1 + right.need)

def postorder : Expr → List Instruction
  | .leaf type => [.push type]
  | .unary operator operand => operand.postorder ++ [.apply operator]
  | .binary operator left right => left.postorder ++ right.postorder ++ [.apply operator]

theorem infer_unary_exact {operator : Operator} {operand : Expr} {type : OperandType} :
    (Expr.unary operator operand).infer = .ok type ↔
      ∃ inner, operand.infer = .ok inner ∧ Typing.unary operator inner = .ok type := by
  simp only [infer]
  cases operand.infer with
  | error fault => simp
  | ok innerType => simp

theorem infer_binary_exact {operator : Operator} {left right : Expr} {type : OperandType} :
    (Expr.binary operator left right).infer = .ok type ↔
      ∃ leftType rightType, left.infer = .ok leftType ∧ right.infer = .ok rightType ∧
        Typing.binary operator leftType rightType = .ok type := by
  simp only [infer]
  cases left.infer with
  | error fault => simp
  | ok leftType =>
    cases right.infer with
    | error fault => simp
    | ok rightType => simp

end Expr
end MethodFrame
