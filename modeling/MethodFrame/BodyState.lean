-- Where the emission of a method body stands.
namespace MethodFrame

inductive BodyState where
  | start
  | done
  | failed
deriving DecidableEq, Repr

namespace BodyState

def all : List BodyState := [.start, .done, .failed]

def index : BodyState → Nat
  | .start => 0
  | .done => 1
  | .failed => 2

def name : BodyState → String
  | .start => "start"
  | .done => "end"
  | .failed => "err"

def label : BodyState → String
  | .start => "Start"
  | .done => "End"
  | .failed => "Err"

def isFailed (state : BodyState) : Bool := state = .failed

end BodyState
end MethodFrame
