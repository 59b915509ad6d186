import MethodFrame.OperandType
import MethodFrame.Operator
import MethodFrame.Text.Quoted

-- What can go wrong, as causes, with the wording and the structural dump of each.
namespace MethodFrame

-- `internal` is a broken promise of this library and not of its caller. The
-- branches that raise it are kept, so that their being out of reach is a fact
-- about the operations and not about their types.
inductive Fault where
  | unknownType (text : String)
  | unknownOperator (text : String)
  | invalidTag (vocabulary : String) (tag : UInt8)
  | typeMismatch (operator : Operator) (left right : OperandType)
  | unaryTypeMismatch (operator : Operator) (operand : OperandType)
  | arityMismatch (operator : Operator) (expected actual : Nat)
  | missingPayload (type : OperandType)
  | redeclared (name : String)
  | localsExhausted (limit : Nat)
  | slotNotInUse (index : Nat)
  | stackOverflow (limit : Nat)
  | stackUnderflow
  | internal (message file : String) (line : Nat)
deriving DecidableEq, Repr

namespace Fault

def unplaced (message : String) : Fault := .internal message "" 0

def isInternal : Fault → Bool
  | .internal .. => true
  | _ => false

def kept? : Fault → Option String
  | .internal message _ _ => some message
  | _ => none

def label : Fault → String
  | .unknownType .. => "UnknownType"
  | .unknownOperator .. => "UnknownOperator"
  | .invalidTag .. => "InvalidDiscriminant"
  | .typeMismatch .. => "TypeMismatch"
  | .unaryTypeMismatch .. => "UnaryTypeMismatch"
  | .arityMismatch .. => "ArityMismatch"
  | .missingPayload .. => "MissingPayload"
  | .redeclared .. => "Redeclared"
  | .localsExhausted .. => "LocalsExhausted"
  | .slotNotInUse .. => "SlotNotInUse"
  | .stackOverflow .. => "StackOverflow"
  | .stackUnderflow => "StackUnderflow"
  | .internal .. => "Bug"

-- The sentence that a user reads. A text of the user stands in it unescaped, between backticks;
-- only an internal fault has its texts written by `quote`.
def messageWith (quote : String → String) : Fault → String
  | .unknownType text => "Unknown semantic type: `" ++ text ++ "`"
  | .unknownOperator text => "Unknown operator: `" ++ text ++ "`"
  | .invalidTag vocabulary tag => tag.toNat.repr ++ " is not a discriminant of " ++ vocabulary
  | .typeMismatch operator left right =>
    "Operator `" ++ operator.display ++ "` cannot be applied to " ++ left.name ++ " and " ++
      right.name
  | .unaryTypeMismatch operator operand =>
    "Operator `" ++ operator.display ++ "` cannot be applied to " ++ operand.name
  | .arityMismatch operator expected actual =>
    "Operator `" ++ operator.display ++ "` takes " ++ expected.repr ++ " operand(s), but " ++
      actual.repr ++ " given"
  | .missingPayload type => "A " ++ type.name ++ " value has no payload"
  | .redeclared name => "Variable `" ++ name ++ "` is already declared"
  | .localsExhausted limit => "No free local variable slot (limit " ++ limit.repr ++ ")"
  | .slotNotInUse index => "Slot " ++ index.repr ++ " is not in use"
  | .stackOverflow limit => "Operand stack overflow (limit " ++ limit.repr ++ ")"
  | .stackUnderflow => "Operand stack underflow"
  | .internal message file line =>
    "Bug: " ++ quote message ++ " at " ++ quote file ++ ":" ++ line.repr

def message (fault : Fault) : String := fault.messageWith Text.quoted

def tuple (label : String) (fields : List String) : String :=
  label ++ "(" ++ ", ".intercalate fields ++ ")"

def named (label : String) (fields : List (String × String)) : String :=
  label ++ " \x7b " ++ ", ".intercalate (fields.map (fun field => field.1 ++ ": " ++ field.2)) ++
    " \x7d"

def dumpWith (quote : String → String) (fault : Fault) : String :=
  match fault with
  | .unknownType text | .unknownOperator text | .redeclared text =>
    tuple fault.label [quote text]
  | .invalidTag vocabulary tag =>
    named fault.label [("name", quote vocabulary), ("value", tag.toNat.repr)]
  | .typeMismatch operator left right =>
    tuple fault.label [operator.label, left.label, right.label]
  | .unaryTypeMismatch operator operand => tuple fault.label [operator.label, operand.label]
  | .arityMismatch operator expected actual =>
    named fault.label
      [("op", operator.label), ("expected", expected.repr), ("actual", actual.repr)]
  | .missingPayload type => tuple fault.label [type.label]
  | .localsExhausted size | .slotNotInUse size | .stackOverflow size =>
    tuple fault.label [size.repr]
  | .stackUnderflow => fault.label
  | .internal message file line =>
    named fault.label [("message", quote message), ("file", quote file), ("line", line.repr)]

def dump (fault : Fault) : String := fault.dumpWith Text.quoted

end Fault
end MethodFrame
