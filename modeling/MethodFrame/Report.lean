import MethodFrame.BodyState
import MethodFrame.Limit
import MethodFrame.OperandType
import MethodFrame.Operator
import MethodFrame.Text.Column

-- What is printed: the tables of the vocabulary, the limits, and the line of a checked application.
namespace MethodFrame

inductive Style where
  | red
  | dimmed
deriving DecidableEq, Repr

abbrev Paint := Style → String → String

inductive Table where
  | types
  | operators
  | commands
  | limits
deriving DecidableEq, Repr

namespace Table

def all : List Table := [.types, .operators, .commands, .limits]

def title : Table → String
  | .types => "Semantic types:"
  | .operators => "Operators:"
  | .commands => "Jasmin commands:"
  | .limits => "Limits:"

def typeRow (type : OperandType) : String :=
  (Text.Column.ofRight 2).place type.index.repr ++ "  " ++
    (Text.Column.ofLeft 10).place type.name ++ " " ++ type.descriptor

def operatorRow (operator : Operator) : String :=
  (Text.Column.ofRight 2).place operator.index.repr ++ "  " ++
    (Text.Column.ofLeft 4).place operator.display ++ " " ++ operator.category.label ++ " / " ++
    operator.arity.repr

def stateRow (state : BodyState) : String :=
  (Text.Column.ofRight 2).place state.index.repr ++ "  " ++ state.name

def rows : Table → List String
  | .types => OperandType.all.map typeRow
  | .operators => Operator.all.map operatorRow
  | .commands => BodyState.all.map stateRow
  | .limits => limitDirectives

def print (paint : Paint) (table : Table) : String :=
  paint .red table.title ++ "\n" ++ String.join (table.rows.map (fun row => "  " ++ row ++ "\n"))

end Table

def printChecked (paint : Paint) (text : String) (type : OperandType) : String :=
  type.name ++ " " ++ paint .dimmed ("; " ++ text) ++ "\n"

end MethodFrame
