-- Table columns: a text cut to a number of characters and then filled up to a width.
namespace MethodFrame.Text

inductive Align where
  | left
  | right
  | centre
deriving DecidableEq, Repr

structure Column where
  align : Align := .left
  fill : Char := ' '
  width : Nat := 0
  precision : Option Nat := none
deriving DecidableEq, Repr

namespace Column

def before (column : Column) (missing : Nat) : Nat :=
  match column.align with
  | .left => 0
  | .right => missing
  | .centre => missing / 2

-- Lengths count characters. The cut comes first, so what is filled up is what is
-- left of the text. A centred text with an odd rest gets the larger half behind it.
def place (column : Column) (text : String) : String :=
  let kept := match column.precision with
    | none => text.toList
    | some limit => text.toList.take limit
  let missing := column.width - kept.length
  let front := column.before missing
  String.ofList
    (List.replicate front column.fill ++ kept ++ List.replicate (missing - front) column.fill)

def ofLeft (width : Nat) : Column := ⟨.left, ' ', width, none⟩

def ofRight (width : Nat) : Column := ⟨.right, ' ', width, none⟩

end Column
end MethodFrame.Text
