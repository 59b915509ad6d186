-- The budget of a method frame: one bound serves the operand stack and the local slots alike.
namespace MethodFrame

def frameLimit : Nat := 15

def limitDirectives : List String :=
  [".limit stack " ++ frameLimit.repr, ".limit locals " ++ frameLimit.repr]

end MethodFrame
