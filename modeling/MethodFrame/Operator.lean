import MethodFrame.Lookup

-- The operators of the source language, with their symbols, categories and operand counts.
namespace MethodFrame

inductive Category where
  | arithmetic
  | relational
  | logical
  | nothing
deriving DecidableEq, Repr

-- `none` closes the list of tags and stands for the absence of an operator. It
-- has a tag and a category of its own, but no symbol that a text can contain.
inductive Operator where
  | add
  | sub
  | mul
  | div
  | mod
  | lt
  | le
  | eq
  | ge
  | gt
  | ne
  | and
  | or
  | not
  | none
deriving DecidableEq, Repr

def Category.label : Category → String
  | .arithmetic => "Arithmetic"
  | .relational => "Relational"
  | .logical => "Logical"
  | .nothing => "Nothing"

namespace Operator

def all : List Operator :=
  [.add, .sub, .mul, .div, .mod, .lt, .le, .eq, .ge, .gt, .ne, .and, .or, .not, .none]

def index : Operator → Nat
  | .add => 0
  | .sub => 1
  | .mul => 2
  | .div => 3
  | .mod => 4
  | .lt => 5
  | .le => 6
  | .eq => 7
  | .ge => 8
  | .gt => 9
  | .ne => 10
  | .and => 11
  | .or => 12
  | .not => 13
  | .none => 14

def ofIndex? (tag : Nat) : Option Operator := all[tag]?

def symbol : Operator → String
  | .add => "+"
  | .sub => "-"
  | .mul => "*"
  | .div => "/"
  | .mod => "%"
  | .lt => "<"
  | .le => "<="
  | .eq => "=="
  | .ge => ">="
  | .gt => ">"
  | .ne => "!="
  | .and => "&&"
  | .or => "||"
  | .not => "!"
  | .none => ""

def ofSymbol? (text : String) : Option Operator :=
  all.find? (fun operator => operator.symbol = text)

def display (operator : Operator) : String :=
  if operator = .none then "none" else operator.symbol

def label : Operator → String
  | .add => "Add"
  | .sub => "Sub"
  | .mul => "Mul"
  | .div => "Div"
  | .mod => "Mod"
  | .lt => "Lt"
  | .le => "Le"
  | .eq => "Eq"
  | .ge => "Ge"
  | .gt => "Gt"
  | .ne => "Ne"
  | .and => "And"
  | .or => "Or"
  | .not => "Not"
  | .none => "None"

def category : Operator → Category
  | .add | .sub | .mul | .div | .mod => .arithmetic
  | .lt | .le | .eq | .ge | .gt | .ne => .relational
  | .and | .or | .not => .logical
  | .none => .nothing

def arity : Operator → Nat
  | .not => 1
  | .none => 0
  | _ => 2

theorem mem_all (operator : Operator) : operator ∈ all := by
  cases operator <;> decide

theorem symbol_injective {left right : Operator} (same : left.symbol = right.symbol) :
    left = right :=
  (by decide : ∀ left ∈ all, ∀ right ∈ all, symbol left = symbol right → left = right)
    left left.mem_all right right.mem_all same

theorem ofSymbol_exact {text : String} {operator : Operator} :
    ofSymbol? text = some operator ↔ operator.symbol = text :=
  find_key operator.mem_all fun _ _ => symbol_injective

theorem arity_one {operator : Operator} : operator.arity = 1 ↔ operator = .not := by
  cases operator <;> decide

end Operator
end MethodFrame
