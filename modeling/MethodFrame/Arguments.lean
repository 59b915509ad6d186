-- Argument lists seen from the program: the options it declares, and what a parser finds of them.
namespace MethodFrame

structure Transcript where
  exit : Nat
  output : String
  errors : String
deriving DecidableEq, Repr

namespace Arguments

structure Declared where
  name : String
  letter : Option Char := none
  valued : Bool := false
deriving DecidableEq, Repr

structure Found where
  name : String
  value : Option String := none
deriving DecidableEq, Repr

-- Options are found in the order of the arguments. A parser that refuses them ends the run itself.
abbrev Parser := List Declared → List String → Except Transcript (List Found)

end Arguments
end MethodFrame
