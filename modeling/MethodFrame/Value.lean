import MethodFrame.Double.Display
import MethodFrame.OperandType

-- Semantic values: a type together with the payload that the type asks for.
namespace MethodFrame

-- Decidable equality compares payloads bit for bit; `Value.equals` compares
-- floats as numbers.
inductive Value where
  | void
  | int (payload : Int32)
  | float (payload : Double)
  | string (payload : String)
  | strongInt (payload : Int32)
deriving DecidableEq

namespace Value

def type : Value → OperandType
  | .void => .void
  | .int _ => .int
  | .float _ => .float
  | .string _ => .string
  | .strongInt _ => .strongInt

def display : Value → String
  | .void => "void"
  | .int payload => payload.toInt.repr
  | .float payload => payload.display
  | .string payload => "\"" ++ payload ++ "\""
  | .strongInt payload => payload.toInt.repr

def equals : Value → Value → Bool
  | .float left, .float right => left.equals right
  | left, right => left = right

end Value
end MethodFrame
