import MethodFrame.Proofs.OperandStack.Transition
import MethodFrame.Proofs.SlotTable.Transition

-- Calls on the locals and on the stack of one frame, in any order: a refused call leaves no trace,
-- and an accepted one logs exactly one line for every local or entry that it puts in or takes out.
namespace MethodFrame

def Outcome.within {σ τ α β : Type} (outcome : Outcome σ α) (put : σ → τ) (wrap : α → β) :
    Outcome τ β :=
  ⟨(outcome.map wrap).answer, put outcome.state, outcome.events⟩

structure Frame where
  locals : SlotTable
  stack : OperandStack

namespace Frame

def empty : Frame := ⟨.empty, .empty⟩

inductive Call where
  | locals (call : SlotTable.Call)
  | stack (call : OperandStack.Call)
deriving DecidableEq

inductive Answer where
  | locals (answer : SlotTable.Answer)
  | stack (answer : OperandStack.Answer)
deriving DecidableEq

def perform (frame : Frame) : Call → Outcome Frame Answer
  | .locals call =>
    (frame.locals.perform call).within (fun locals => { frame with locals := locals }) .locals
  | .stack call =>
    (frame.stack.perform call).within (fun stack => { frame with stack := stack }) .stack

def after (calls : List Call) : Frame := Run.finish perform empty calls

-- An operator logs its result and nothing about its operands.
inductive Logs (depth : Nat) : Call → Answer → List Event → Prop where
  | declare (name : String) (type : OperandType) (slot : Slot) :
      Logs depth (.locals (.declare name type)) (.locals (.slot slot)) [.declared name type slot]
  | temporary (type : OperandType) (slot : Slot) :
      Logs depth (.locals (.temporary type)) (.locals (.slot slot)) [.temporary type slot]
  | release (slot : Slot) :
      Logs depth (.locals (.release slot)) (.locals .done) [.released slot]
  | push (type : OperandType) :
      Logs depth (.stack (.push type)) (.stack .done) [.pushed type depth]
  | apply (operator : Operator) (result : OperandType) :
      Logs depth (.stack (.apply operator)) (.stack (.type result)) [.pushed result depth]
  | lookup (name : String) (found : Option (Slot × OperandType)) :
      Logs depth (.locals (.lookup name)) (.locals (.binding found)) []
  | size (number : Nat) : Logs depth (.locals .size) (.locals (.count number)) []
  | isEmpty (value : Bool) : Logs depth (.locals .isEmpty) (.locals (.flag value)) []
  | highWater (number : Nat) : Logs depth (.locals .highWater) (.locals (.count number)) []
  | pop (type : OperandType) : Logs depth (.stack .pop) (.stack (.type type)) []
  | peek (found : Option OperandType) : Logs depth (.stack .peek) (.stack (.top found)) []

def Bounded (frame : Frame) : Prop := frame.stack.Bounded

theorem perform_bounded (frame : Frame) (call : Call) (bounded : frame.Bounded) :
    (frame.perform call).state.Bounded := by
  cases call with
  | locals call => exact bounded
  | stack call => exact frame.stack.perform_bounded call bounded

theorem empty_bounded : Bounded empty := OperandStack.empty_bounded

theorem after_bounded (calls : List Call) : (after calls).Bounded :=
  Run.kept perform perform_bounded empty_bounded calls

theorem perform_refused (frame : Frame) (call : Call) (fault : Fault) (bounded : frame.Bounded)
    (failed : (frame.perform call).answer = .error fault) :
    (frame.perform call).state = frame ∧ (frame.perform call).events = [] := by
  cases call with
  | locals call =>
    have step := frame.locals.perform_step call
    obtain ⟨same, silent⟩ := step.refused (Outcome.map_error.mp failed)
    rw [perform, Outcome.within, same, silent]
    exact ⟨rfl, rfl⟩
  | stack call =>
    have step := OperandStack.perform_step bounded call
    obtain ⟨same, silent⟩ := step.refused (Outcome.map_error.mp failed)
    rw [perform, Outcome.within, same, silent]
    exact ⟨rfl, rfl⟩

theorem locals_logs {table : SlotTable} {call : SlotTable.Call}
    {outcome : Outcome SlotTable SlotTable.Answer} (step : table.Step call outcome)
    {answer : SlotTable.Answer} (given : outcome.answer = .ok answer) (depth : Nat) :
    Logs depth (.locals call) (.locals answer) outcome.events := by
  cases step <;> cases given <;> constructor

theorem stack_logs {stack : OperandStack} {call : OperandStack.Call}
    {outcome : Outcome OperandStack OperandStack.Answer} (step : stack.Step call outcome)
    {answer : OperandStack.Answer} (given : outcome.answer = .ok answer) :
    Logs outcome.state.depth (.stack call) (.stack answer) outcome.events := by
  cases step with
  | @pushed type room =>
    cases given
    change Logs (stack.put stack.entries type).depth _ _ _
    rw [stack.depth_put]
    exact .push type
  | @applied operator below operands type parts count typed =>
    cases given
    change Logs (stack.put below type).depth _ _ _
    rw [stack.depth_put]
    exact .apply operator type
  | popped parts =>
    cases given
    exact .pop _
  | peek =>
    cases given
    exact .peek _
  | _ => cases given

theorem perform_logs {frame : Frame} (bounded : frame.Bounded) {call : Call}
    {answer : Answer} (given : (frame.perform call).answer = .ok answer) :
    Logs (frame.perform call).state.stack.depth call answer (frame.perform call).events := by
  cases call with
  | locals call =>
    obtain ⟨own, accepted, rfl⟩ := Outcome.map_ok.mp given
    exact locals_logs (frame.locals.perform_step call) accepted _
  | stack call =>
    obtain ⟨own, accepted, rfl⟩ := Outcome.map_ok.mp given
    exact stack_logs (OperandStack.perform_step bounded call) accepted

theorem refused_traceless (calls : List Call) :
    (∀ call fault, ((after calls).perform call).answer = .error fault →
      ((after calls).perform call).state = after calls ∧
        ((after calls).perform call).events = []) ∧
    (∀ keep : Nat → Bool,
      (∀ place record, (Run.records perform empty calls)[place]? = some record →
        keep place = false → ∃ fault, record.answer = .error fault) →
      Run.records perform empty (Run.select keep calls) =
          Run.select keep (Run.records perform empty calls) ∧
        Run.journal perform empty (Run.select keep calls) = Run.journal perform empty calls ∧
        after (Run.select keep calls) = after calls) ∧
    ∀ call answer, ((after calls).perform call).answer = .ok answer →
      Logs ((after calls).perform call).state.stack.depth call answer
        ((after calls).perform call).events := by
  have bounded := after_bounded calls
  refine ⟨fun call fault failed => perform_refused _ call fault bounded failed,
    fun keep refused => ?_, fun call answer given => perform_logs bounded given⟩
  exact Run.select_refused perform perform_bounded perform_refused empty_bounded refused

end Frame
end MethodFrame
