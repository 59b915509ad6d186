import MethodFrame.Fault

-- The type of an operator applied to operands. The number of operands is tested before their types.
namespace MethodFrame.Typing

def checkArity (operator : Operator) (actual : Nat) : Except Fault Unit :=
  if operator.arity = actual then .ok ()
  else .error (.arityMismatch operator operator.arity actual)

def integral (left right : OperandType) : OperandType :=
  if left = .strongInt ∧ right = .strongInt then .strongInt else .int

def arithmetic? (operator : Operator) (left right : OperandType) : Option OperandType :=
  if operator = .mod then
    if left.isIntegral ∧ right.isIntegral then some (integral left right) else none
  else if ¬(left.isNumeric ∧ right.isNumeric) then none
  else if left = .float ∨ right = .float then some .float
  else some (integral left right)

-- Numbers can be ordered and compared, texts only told apart.
def comparable (operator : Operator) (left right : OperandType) : Bool :=
  (left.isNumeric && right.isNumeric) ||
    (left = .string && right = .string && (operator = .eq || operator = .ne))

def result? (operator : Operator) (left right : OperandType) : Option OperandType :=
  match operator.category with
  | .arithmetic => arithmetic? operator left right
  | .relational => if comparable operator left right then some .int else none
  | .logical => if left.isIntegral ∧ right.isIntegral then some .int else none
  | .nothing => none

def binary (operator : Operator) (left right : OperandType) : Except Fault OperandType :=
  match checkArity operator 2 with
  | .error fault => .error fault
  | .ok () => match result? operator left right with
    | some type => .ok type
    | none => .error (.typeMismatch operator left right)

def unary (operator : Operator) (operand : OperandType) : Except Fault OperandType :=
  match checkArity operator 1 with
  | .error fault => .error fault
  | .ok () =>
    if operand.isIntegral then .ok .int else .error (.unaryTypeMismatch operator operand)

theorem unary_exact {operator : Operator} {operand type : OperandType} :
    unary operator operand = .ok type ↔
      operator.arity = 1 ∧ operand.isIntegral = true ∧ type = .int := by
  by_cases one : operator.arity = 1
  · cases integral : operand.isIntegral <;> simp [unary, checkArity, one, integral, eq_comm]
  · simp [unary, checkArity, one]

theorem binary_exact {operator : Operator} {left right type : OperandType} :
    binary operator left right = .ok type ↔
      operator.arity = 2 ∧ result? operator left right = some type := by
  by_cases two : operator.arity = 2
  · cases result : result? operator left right <;> simp [binary, checkArity, two, result]
  · simp [binary, checkArity, two]

theorem unary_refused {operator : Operator} (one : operator.arity = 1) {operand : OperandType}
    {fault : Fault} (refused : unary operator operand = .error fault) :
    fault = .unaryTypeMismatch operator operand := by
  simp only [unary, checkArity, if_pos one] at refused
  split at refused
  · cases refused
  · exact (Except.error.inj refused).symm

theorem binary_refused {operator : Operator} (two : operator.arity = 2)
    {left right : OperandType} {fault : Fault}
    (refused : binary operator left right = .error fault) :
    fault = .typeMismatch operator left right := by
  simp only [binary, checkArity, if_pos two] at refused
  split at refused
  · cases refused
  · exact (Except.error.inj refused).symm

theorem unary_mismatch {operator : Operator} (other : operator.arity ≠ 1) (operand : OperandType) :
    unary operator operand = .error (.arityMismatch operator operator.arity 1) := by
  rw [unary, checkArity, if_neg other]

theorem binary_mismatch {operator : Operator} (other : operator.arity ≠ 2)
    (left right : OperandType) :
    binary operator left right = .error (.arityMismatch operator operator.arity 2) := by
  rw [binary, checkArity, if_neg other]

end MethodFrame.Typing
