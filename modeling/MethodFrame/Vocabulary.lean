import MethodFrame.Fault

-- Types and operators read from their names, symbols and tags.
namespace MethodFrame

def OperandType.read (text : String) : Except Fault OperandType :=
  match OperandType.ofName? text with
  | some type => .ok type
  | none => .error (.unknownType text)

def OperandType.ofTag (tag : UInt8) : Except Fault OperandType :=
  match OperandType.ofIndex? tag.toNat with
  | some type => .ok type
  | none => .error (.invalidTag "SemType" tag)

-- The empty text reads as the absent operator.
def Operator.read (text : String) : Except Fault Operator :=
  match Operator.ofSymbol? text with
  | some operator => .ok operator
  | .none => .error (.unknownOperator text)

def Operator.ofTag (tag : UInt8) : Except Fault Operator :=
  match Operator.ofIndex? tag.toNat with
  | some operator => .ok operator
  | .none => .error (.invalidTag "Operator" tag)

theorem OperandType.read_exact {text : String} {type : OperandType} :
    OperandType.read text = .ok type ↔ text = type.name := by
  rw [@eq_comm _ text, ← OperandType.ofName_exact, OperandType.read]
  cases OperandType.ofName? text <;> simp

end MethodFrame
