import MethodFrame.Proofs.OperandStack.Steps
import MethodFrame.Proofs.Run

-- The calls on an operand stack, and the rules that they follow within the frame limit.
namespace MethodFrame.OperandStack

inductive Call where
  | push (type : OperandType)
  | pop
  | peek
  | apply (operator : Operator)
deriving DecidableEq

def Call.ofStep : Instruction → Call
  | .push type => .push type
  | .apply operator => .apply operator

inductive Answer where
  | done
  | type (type : OperandType)
  | top (found : Option OperandType)
deriving DecidableEq

def perform (stack : OperandStack) : Call → Outcome OperandStack Answer
  | .push type => (stack.push type).map (fun _ => .done)
  | .pop => stack.pop.map .type
  | .peek => .quiet (.top stack.peek) stack
  | .apply operator => (stack.apply operator).map .type

theorem execute_perform (stack : OperandStack) (instruction : Instruction) :
    stack.execute instruction = (stack.perform (Call.ofStep instruction)).map (fun _ => ()) := by
  cases instruction with
  | push type =>
    simp only [execute, Call.ofStep, perform]
    cases stack.push type with
    | mk answer state events => cases answer <;> rfl
  | apply operator =>
    simp only [execute, Call.ofStep, perform]
    cases stack.apply operator with
    | mk answer state events => cases answer <;> rfl

def after (calls : List Call) : OperandStack := Run.finish perform empty calls

def Bounded (stack : OperandStack) : Prop := stack.depth ≤ frameLimit

def put (stack : OperandStack) (below : List OperandType) (type : OperandType) : OperandStack :=
  ⟨below ++ [type], max stack.maxDepth (below.length + 1)⟩

theorem depth_put (stack : OperandStack) (below : List OperandType) (type : OperandType) :
    (stack.put below type).depth = below.length + 1 := by
  simp [put, depth]

inductive Step (stack : OperandStack) : Call → Outcome OperandStack Answer → Prop where
  | pushed {type : OperandType} (room : stack.depth < frameLimit) :
      Step stack (.push type)
        (.accept .done (stack.put stack.entries type) (.pushed type (stack.depth + 1)))
  | overflow {type : OperandType} (full : frameLimit ≤ stack.depth) :
      Step stack (.push type) (.refuse stack (.stackOverflow frameLimit))
  | popped {below : List OperandType} {type : OperandType}
      (parts : stack.entries = below ++ [type]) :
      Step stack .pop (.quiet (.type type) ⟨below, stack.maxDepth⟩)
  | popEmpty (empty : stack.entries = []) : Step stack .pop (.refuse stack .stackUnderflow)
  | peek : Step stack .peek (.quiet (.top stack.peek) stack)
  | applied {operator : Operator} {below operands : List OperandType} {type : OperandType}
      (parts : stack.entries = below ++ operands) (count : operands.length = operator.arity)
      (typed : resultOf operator operands = .ok type) :
      Step stack (.apply operator)
        (.accept (.type type) (stack.put below type) (.pushed type (below.length + 1)))
  | untyped {operator : Operator} {below operands : List OperandType} {fault : Fault}
      (parts : stack.entries = below ++ operands) (count : operands.length = operator.arity)
      (refused : resultOf operator operands = .error fault) :
      Step stack (.apply operator) (.refuse stack fault)
  | underflow {operator : Operator} (short : stack.depth < operator.arity) :
      Step stack (.apply operator) (.refuse stack .stackUnderflow)

theorem operands_of_result {operator : Operator} {operands : List OperandType} {type : OperandType}
    (typed : resultOf operator operands = .ok type) : 0 < operands.length := by
  cases operands with
  | nil => cases typed
  | cons operand rest => exact Nat.succ_pos _

theorem present_of_result {operator : Operator} {operands : List OperandType} {type : OperandType}
    (count : operands.length = operator.arity) (typed : resultOf operator operands = .ok type) :
    operator ≠ .none := by
  rintro rfl
  exact Nat.ne_of_gt (operands_of_result typed) count

theorem operands_cases {operator : Operator} (present : operator ≠ .none)
    {operands : List OperandType} (count : operands.length = operator.arity) :
    (∃ operand, operands = [operand]) ∨ ∃ left right, operands = [left, right] := by
  have few : operator.arity = 1 ∨ operator.arity = 2 := by
    cases operator with
    | none => exact absurd rfl present
    | _ => decide
  rcases few with one | two
  · exact .inl (List.length_eq_one_iff.mp (count.trans one))
  · match operands, count.trans two with
    | [left, right], _ => exact .inr ⟨left, right, rfl⟩

theorem below_lt_depth {stack : OperandStack} {operator : Operator}
    {below operands : List OperandType} {type : OperandType}
    (parts : stack.entries = below ++ operands) (typed : resultOf operator operands = .ok type) :
    below.length < stack.depth := by
  have taken := operands_of_result typed
  rw [depth, parts, List.length_append]
  omega

theorem operands_le_depth {stack : OperandStack} {operator : Operator}
    {below operands : List OperandType} (parts : stack.entries = below ++ operands)
    (count : operands.length = operator.arity) : operator.arity ≤ stack.depth := by
  rw [depth, parts, List.length_append, count]
  exact Nat.le_add_left _ _

theorem operands_split {stack : OperandStack} {operator : Operator}
    (enough : operator.arity ≤ stack.depth) :
    ∃ below operands, stack.entries = below ++ operands ∧ operands.length = operator.arity := by
  refine ⟨_, _, (List.take_append_drop (stack.depth - operator.arity) stack.entries).symm, ?_⟩
  rw [List.length_drop]
  exact Nat.sub_sub_self enough

theorem Step.performed {stack : OperandStack} (bounded : stack.Bounded) {call : Call}
    {outcome : Outcome OperandStack Answer} (step : stack.Step call outcome) :
    stack.perform call = outcome := by
  cases step with
  | pushed room =>
    rw [perform, push_room room]
    rfl
  | overflow full =>
    rw [perform, push_full full]
    rfl
  | popped parts =>
    rw [perform, pop, parts, List.getLast?_concat, List.dropLast_concat]
    rfl
  | popEmpty empty =>
    rw [perform, pop, empty]
    rfl
  | peek => rfl
  | applied parts count typed =>
    have room := Nat.lt_of_lt_of_le (below_lt_depth parts typed) bounded
    rw [perform, apply_operands parts count room, typed]
    rfl
  | untyped parts count refused =>
    rw [perform, apply_parts parts count, refused]
    rfl
  | underflow short =>
    rw [perform, apply, if_pos short]
    rfl

theorem Step.taken {stack : OperandStack} (bounded : stack.Bounded) {call : Call}
    {outcome : Outcome OperandStack Answer} (step : stack.Step call outcome) :
    stack.Step call (stack.perform call) := by
  rw [step.performed bounded]
  exact step

theorem perform_step {stack : OperandStack} (bounded : stack.Bounded) (call : Call) :
    stack.Step call (stack.perform call) := by
  cases call with
  | push type =>
    by_cases full : frameLimit ≤ stack.depth
    · exact (Step.overflow full).taken bounded
    · exact (Step.pushed (Nat.lt_of_not_le full)).taken bounded
  | pop =>
    rcases List.eq_nil_or_concat stack.entries with empty | ⟨below, type, parts⟩
    · exact (Step.popEmpty empty).taken bounded
    · rw [List.concat_eq_append] at parts
      exact (Step.popped parts).taken bounded
  | peek => exact .peek
  | apply operator =>
    by_cases short : stack.depth < operator.arity
    · exact (Step.underflow short).taken bounded
    · obtain ⟨below, operands, parts, count⟩ := operands_split (Nat.le_of_not_lt short)
      cases result : resultOf operator operands with
      | error fault => exact (Step.untyped parts count result).taken bounded
      | ok type => exact (Step.applied parts count result).taken bounded

theorem Step.refused {stack : OperandStack} {call : Call} {outcome : Outcome OperandStack Answer}
    (step : stack.Step call outcome) {fault : Fault} (failed : outcome.answer = .error fault) :
    outcome.state = stack ∧ outcome.events = [] := by
  cases step with
  | overflow full => exact ⟨rfl, rfl⟩
  | popEmpty empty => exact ⟨rfl, rfl⟩
  | untyped parts count refused => exact ⟨rfl, rfl⟩
  | underflow short => exact ⟨rfl, rfl⟩
  | _ => cases failed

theorem apply_answer {stack : OperandStack} (bounded : stack.Bounded)
    {operator : Operator} {below operands : List OperandType}
    (parts : stack.entries = below ++ operands) (count : operands.length = operator.arity) :
    (stack.apply operator).answer = resultOf operator operands := by
  cases result : resultOf operator operands with
  | error fault =>
    rw [apply_parts parts count, result]
    rfl
  | ok type =>
    have room := Nat.lt_of_lt_of_le (below_lt_depth parts result) bounded
    rw [apply_operands parts count room, result]
    rfl

theorem Step.bounded {stack : OperandStack} (bounded : stack.Bounded) {call : Call}
    {outcome : Outcome OperandStack Answer} (step : stack.Step call outcome) :
    outcome.state.Bounded := by
  cases step with
  | pushed room => exact Nat.le_trans (Nat.le_of_eq (stack.depth_put _ _)) room
  | popped parts =>
    rw [Bounded, depth, parts, List.length_append] at bounded
    exact Nat.le_of_succ_le bounded
  | applied parts count typed =>
    have room := Nat.lt_of_lt_of_le (below_lt_depth parts typed) bounded
    exact Nat.le_trans (Nat.le_of_eq (stack.depth_put _ _)) room
  | overflow full => exact bounded
  | popEmpty empty => exact bounded
  | peek => exact bounded
  | untyped parts count refused => exact bounded
  | underflow short => exact bounded

theorem empty_bounded : Bounded empty := Nat.zero_le _

theorem perform_bounded (stack : OperandStack) (call : Call) (bounded : stack.Bounded) :
    (stack.perform call).state.Bounded :=
  (perform_step bounded call).bounded bounded

theorem after_bounded (calls : List Call) : (after calls).Bounded :=
  Run.kept perform perform_bounded empty_bounded calls

end MethodFrame.OperandStack
