import MethodFrame.Fault
import MethodFrame.Slot

-- What the operations on a frame log, and the outcomes of calls.
namespace MethodFrame

inductive Level where
  | error
  | warn
  | info
  | debug
  | trace
deriving DecidableEq, Repr

namespace Level

def rank : Level → Nat
  | .error => 1
  | .warn => 2
  | .info => 3
  | .debug => 4
  | .trace => 5

def name : Level → String
  | .error => "ERROR"
  | .warn => "WARN"
  | .info => "INFO"
  | .debug => "DEBUG"
  | .trace => "TRACE"

end Level

inductive Event where
  | declared (name : String) (type : OperandType) (slot : Slot)
  | temporary (type : OperandType) (slot : Slot)
  | released (slot : Slot)
  | pushed (type : OperandType) (depth : Nat)
deriving DecidableEq, Repr

namespace Event

def level : Event → Level
  | .declared .. => .debug
  | _ => .trace

def text : Event → String
  | .declared name type slot =>
    "declare " ++ name ++ ": " ++ type.name ++ " at slot " ++ slot.display
  | .temporary type slot => "temporary " ++ type.name ++ " at slot " ++ slot.display
  | .released slot => "release slot " ++ slot.display
  | .pushed type depth => "push " ++ type.name ++ " (depth " ++ depth.repr ++ ")"

end Event

-- A failing call has a state and events too. That they are the old state and
-- none is not built in here; each operation has to see to it.
structure Outcome (σ α : Type) where
  answer : Except Fault α
  state : σ
  events : List Event

namespace Outcome
variable {σ α β : Type}

def refuse (state : σ) (fault : Fault) : Outcome σ α := ⟨.error fault, state, []⟩

def accept (answer : α) (state : σ) (event : Event) : Outcome σ α := ⟨.ok answer, state, [event]⟩

def quiet (answer : α) (state : σ) : Outcome σ α := ⟨.ok answer, state, []⟩

def map (f : α → β) (outcome : Outcome σ α) : Outcome σ β :=
  ⟨outcome.answer.map f, outcome.state, outcome.events⟩

theorem map_ok {outcome : Outcome σ α} {f : α → β} {value : β} :
    (outcome.map f).answer = .ok value ↔ ∃ own, outcome.answer = .ok own ∧ f own = value := by
  cases outcome with
  | mk answer state events => cases answer <;> simp [map, Except.map]

theorem map_error {outcome : Outcome σ α} {f : α → β} {fault : Fault} :
    (outcome.map f).answer = .error fault ↔ outcome.answer = .error fault := by
  cases outcome with
  | mk answer state events => cases answer <;> simp [map, Except.map]

end Outcome
end MethodFrame
