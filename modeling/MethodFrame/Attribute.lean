import MethodFrame.Fault
import MethodFrame.Slot
import MethodFrame.Value

-- The attribute of a grammar symbol: storage for every payload, and a type that says which counts.
namespace MethodFrame

-- The fields are independent. Setting one of them never moves another, and a
-- payload that the type does not select stays where it is, unread.
structure Attribute where
  integer : Int32 := 0
  register : Option Slot := none
  real : Double := .zero
  name : Option String := none
  text : Option String := none
  type : OperandType := .void
deriving DecidableEq

namespace Attribute

def empty : Attribute := ⟨0, none, .zero, none, none, .void⟩

def ofInt (value : Int32) : Attribute := { empty with integer := value, type := .int }

def ofStrongInt (value : Int32) : Attribute := { empty with integer := value, type := .strongInt }

def ofFloat (value : Double) : Attribute := { empty with real := value, type := .float }

def ofString (value : String) : Attribute := { empty with text := some value, type := .string }

def reference (name : String) (type : OperandType) : Attribute :=
  { empty with name := some name, type := type }

def withRegister (node : Attribute) (slot : Slot) : Attribute :=
  { node with register := some slot }

inductive Edit where
  | integer (value : Int32)
  | register (slot : Option Slot)
  | real (value : Double)
  | name (value : Option String)
  | text (value : Option String)
  | type (value : OperandType)
deriving DecidableEq

def edit (node : Attribute) : Edit → Attribute
  | .integer value => { node with integer := value }
  | .register slot => { node with register := slot }
  | .real value => { node with real := value }
  | .name value => { node with name := value }
  | .text value => { node with text := value }
  | .type value => { node with type := value }

-- The payload that the type selects. Only a string can be missing.
def value (node : Attribute) : Except Fault Value :=
  match node.type with
  | .void => .ok .void
  | .int => .ok (.int node.integer)
  | .float => .ok (.float node.real)
  | .string => match node.text with
    | some text => .ok (.string text)
    | none => .error (.missingPayload .string)
  | .strongInt => .ok (.strongInt node.integer)

def ofValue : Value → Attribute
  | .void => empty
  | .int payload => ofInt payload
  | .float payload => ofFloat payload
  | .string payload => ofString payload
  | .strongInt payload => ofStrongInt payload

def equals (left right : Attribute) : Bool :=
  left.integer = right.integer && left.register = right.register && left.real.equals right.real &&
    left.name = right.name && left.text = right.text && left.type = right.type

end Attribute
end MethodFrame
