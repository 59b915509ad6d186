import MethodFrame.Limit
import MethodFrame.Proofs.Fault.Raised

-- An operator does what taking its operands off one by one and pushing their result would do, and
-- the largest depth that a stack remembers is the largest one it has had.
namespace MethodFrame.OperandStack

def settle (stack rest : OperandStack) :
    Except Fault OperandType → Outcome OperandStack OperandType
  | .error fault => .refuse stack fault
  | .ok type => (rest.push type).map (fun _ => type)

-- The right operand comes off first.
def replaceTop (stack : OperandStack) (operator : Operator) : Outcome OperandStack OperandType :=
  if operator = .none then .refuse stack (.unknownOperator "none")
  else if stack.depth < operator.arity then .refuse stack .stackUnderflow
  else
    let first := stack.pop
    match first.answer with
    | .error fault => .refuse stack fault
    | .ok right =>
      if operator = .not then settle stack first.state (Typing.unary operator right)
      else
        let second := first.state.pop
        match second.answer with
        | .error fault => .refuse stack fault
        | .ok left => settle stack second.state (Typing.binary operator left right)

theorem pop_parts {stack : OperandStack} {below : List OperandType} {type : OperandType}
    (parts : stack.entries = below ++ [type]) :
    stack.pop = .quiet type ⟨below, stack.maxDepth⟩ := by
  simp [pop, parts]

theorem apply_settle {stack : OperandStack} {below operands : List OperandType}
    {operator : Operator} (parts : stack.entries = below ++ operands)
    (count : operands.length = operator.arity) :
    stack.apply operator = settle stack ⟨below, stack.maxDepth⟩ (resultOf operator operands) := by
  rw [apply_parts parts count]
  cases resultOf operator operands <;> rfl

theorem replaceTop_settle {stack : OperandStack} {below operands : List OperandType}
    {operator : Operator} (present : operator ≠ .none) (parts : stack.entries = below ++ operands)
    (count : operands.length = operator.arity) :
    stack.replaceTop operator =
      settle stack ⟨below, stack.maxDepth⟩ (resultOf operator operands) := by
  have enough := Nat.not_lt.mpr (operands_le_depth parts count)
  rcases operands_cases present count with ⟨operand, rfl⟩ | ⟨left, right, rfl⟩
  · obtain rfl := Operator.arity_one.mp count.symm
    simp only [replaceTop, if_neg present, if_neg enough, pop_parts parts]
    rfl
  · have two : operator ≠ .not := fun one => by cases Operator.arity_one.mpr one ▸ count
    have last : stack.entries = (below ++ [left]) ++ [right] := by simpa using parts
    have next : pop ⟨below ++ [left], stack.maxDepth⟩ = .quiet left ⟨below, stack.maxDepth⟩ :=
      pop_parts rfl
    simp only [replaceTop, if_neg present, if_neg enough, pop_parts last, Outcome.quiet,
      if_neg two, next]
    rfl

theorem apply_replaceTop (stack : OperandStack) (operator : Operator) :
    stack.apply operator = stack.replaceTop operator := by
  by_cases absent : operator = .none
  · subst absent
    exact apply_settle (List.append_nil stack.entries).symm rfl
  by_cases short : stack.depth < operator.arity
  · simp [replaceTop, absent, short, apply]
  obtain ⟨below, operands, parts, count⟩ := operands_split (Nat.le_of_not_lt short)
  rw [apply_settle parts count, replaceTop_settle absent parts count]

structure Marked (stack : OperandStack) : Prop where
  reached : stack.depth ≤ stack.maxDepth
  within : stack.maxDepth ≤ frameLimit

theorem Marked.bounded {stack : OperandStack} (marked : stack.Marked) : stack.Bounded :=
  Nat.le_trans marked.reached marked.within

theorem empty_marked : Marked empty := ⟨Nat.le_refl _, Nat.zero_le _⟩

-- Behind an operator the stack is no deeper than before, so only a push can move the mark.
theorem Step.raised {stack : OperandStack} (reached : stack.depth ≤ stack.maxDepth) {call : Call}
    {outcome : Outcome OperandStack Answer} (step : stack.Step call outcome) :
    outcome.state.maxDepth = max stack.maxDepth outcome.state.depth := by
  cases step with
  | pushed room => simp [Outcome.accept, put, depth]
  | applied parts count typed => simp [Outcome.accept, put, depth]
  | popped parts =>
    simp only [depth, parts, List.length_append] at reached
    simp only [Outcome.quiet, depth]
    omega
  | _ => exact (Nat.max_eq_left reached).symm

theorem Step.apply_mark {stack : OperandStack} (reached : stack.depth ≤ stack.maxDepth)
    {operator : Operator} {outcome : Outcome OperandStack Answer}
    (step : stack.Step (.apply operator) outcome) :
    outcome.state.maxDepth = stack.maxDepth := by
  cases step with
  | applied parts count typed =>
    have below := below_lt_depth parts typed
    simp only [Outcome.accept, put]
    omega
  | untyped parts count refused => rfl
  | underflow short => rfl

theorem perform_marked (stack : OperandStack) (call : Call) (marked : stack.Marked) :
    (stack.perform call).state.Marked := by
  have raised := (perform_step marked.bounded call).raised marked.reached
  have bounded : (stack.perform call).state.depth ≤ frameLimit :=
    stack.perform_bounded call marked.bounded
  have within := marked.within
  exact ⟨by omega, by omega⟩

theorem after_marked (calls : List Call) : (after calls).Marked :=
  Run.kept perform perform_marked empty_marked calls

theorem apply_raises {stack : OperandStack} (bounded : stack.Bounded) {operator : Operator}
    {fault : Fault} (failed : (stack.apply operator).answer = .error fault) :
    Raises (.apply operator) fault :=
  (perform_step bounded (.apply operator)).raises (Outcome.map_error.mpr failed)

theorem operators_within_limit (calls : List Call) :
    (∀ operator, (after calls).apply operator = (after calls).replaceTop operator ∧
      (∀ limit, ((after calls).apply operator).answer ≠ .error (.stackOverflow limit)) ∧
      (∀ named expected actual, ((after calls).apply operator).answer ≠
        .error (.arityMismatch named expected actual)) ∧
      ((after calls).apply operator).state.maxDepth = (after calls).maxDepth) ∧
    ((∃ earlier, earlier <+: calls ∧ (after earlier).depth = (after calls).maxDepth) ∧
      ∀ earlier, earlier <+: calls → (after earlier).depth ≤ (after calls).maxDepth) ∧
    (after calls).maxDepth ≤ frameLimit ∧
    ".limit stack " ++ frameLimit.repr ∈ limitDirectives := by
  have marked := after_marked calls
  refine ⟨fun operator => ⟨apply_replaceTop _ operator, fun limit full => ?_,
    fun named expected actual other => ?_, ?_⟩, ?_, marked.within, List.mem_cons_self⟩
  · cases apply_raises marked.bounded full
  · cases apply_raises marked.bounded other
  · exact (perform_step marked.bounded (.apply operator)).apply_mark marked.reached
  · refine Run.peak perform maxDepth depth perform_marked (fun state call valid => ?_) empty_marked
      rfl calls
    exact (perform_step valid.bounded call).raised valid.reached

end MethodFrame.OperandStack
