import MethodFrame.Lookup

-- The types that a value of the generated code can have, with their names, tags and descriptors.
namespace MethodFrame

-- `strongInt` is an integer whose type a declaration fixed. The machine cannot
-- tell it from `int`: both have one descriptor. Only typing keeps them apart.
inductive OperandType where
  | void
  | int
  | float
  | string
  | strongInt
deriving DecidableEq, Repr

namespace OperandType

def all : List OperandType := [.void, .int, .float, .string, .strongInt]

def index : OperandType → Nat
  | .void => 0
  | .int => 1
  | .float => 2
  | .string => 3
  | .strongInt => 4

def ofIndex? : Nat → Option OperandType
  | 0 => some .void
  | 1 => some .int
  | 2 => some .float
  | 3 => some .string
  | 4 => some .strongInt
  | _ => none

def name : OperandType → String
  | .void => "void"
  | .int => "int"
  | .float => "float"
  | .string => "string"
  | .strongInt => "strong int"

def ofName? (text : String) : Option OperandType :=
  all.find? (fun type => type.name = text)

def label : OperandType → String
  | .void => "Void"
  | .int => "Int"
  | .float => "Float"
  | .string => "String"
  | .strongInt => "StrongInt"

def isIntegral : OperandType → Bool
  | .int | .strongInt => true
  | _ => false

def isNumeric : OperandType → Bool
  | .int | .float | .strongInt => true
  | _ => false

def descriptor : OperandType → String
  | .void => "V"
  | .int | .strongInt => "I"
  | .float => "F"
  | .string => "Ljava/lang/String;"

theorem mem_all (type : OperandType) : type ∈ all := by
  cases type <;> decide

theorem name_inj {left right : OperandType} : left.name = right.name ↔ left = right :=
  (by decide : ∀ left ∈ all, ∀ right ∈ all, name left = name right ↔ left = right)
    left left.mem_all right right.mem_all

theorem ofName_exact {text : String} {type : OperandType} :
    ofName? text = some type ↔ type.name = text :=
  find_key type.mem_all fun _ _ => name_inj.mp

end OperandType
end MethodFrame
