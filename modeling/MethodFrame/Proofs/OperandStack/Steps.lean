import MethodFrame.OperandStack

-- What single steps and whole programs do to an operand stack, said without opening the operations.
namespace MethodFrame.OperandStack

theorem push_room {stack : OperandStack} (room : stack.depth < frameLimit) (type : OperandType) :
    stack.push type = .accept () ⟨stack.entries ++ [type], max stack.maxDepth (stack.depth + 1)⟩
      (.pushed type (stack.depth + 1)) := by
  have below : ¬frameLimit ≤ stack.depth := Nat.not_le.mpr room
  rw [push, if_neg below]
  simp [depth]

theorem push_full {stack : OperandStack} (full : frameLimit ≤ stack.depth) (type : OperandType) :
    stack.push type = .refuse stack (.stackOverflow frameLimit) := by
  simp [push, full]

theorem apply_parts {stack : OperandStack} {below operands : List OperandType}
    {operator : Operator} (parts : stack.entries = below ++ operands)
    (count : operands.length = operator.arity) :
    stack.apply operator = match resultOf operator operands with
      | .error fault => .refuse stack fault
      | .ok type => (push ⟨below, stack.maxDepth⟩ type).map (fun _ => type) := by
  have total : stack.depth = below.length + operator.arity := by
    rw [depth, parts, List.length_append, count]
  have enough : ¬stack.depth < operator.arity := by omega
  have base : stack.depth - operator.arity = below.length := by omega
  cases result : resultOf operator operands with
  | error fault => simp [apply, enough, base, parts, result]
  | ok type => simp [apply, enough, base, parts, result]

theorem apply_operands {stack : OperandStack} {below operands : List OperandType}
    {operator : Operator} (parts : stack.entries = below ++ operands)
    (count : operands.length = operator.arity) (room : below.length < frameLimit) :
    stack.apply operator = match resultOf operator operands with
      | .error fault => .refuse stack fault
      | .ok type => .accept type ⟨below ++ [type], max stack.maxDepth (below.length + 1)⟩
          (.pushed type (below.length + 1)) := by
  rw [apply_parts parts count]
  cases resultOf operator operands with
  | error fault => rfl
  | ok type =>
    have pushed := @push_room ⟨below, stack.maxDepth⟩ room type
    simp only [pushed, depth]
    rfl

theorem execute_push (stack : OperandStack) (type : OperandType) :
    stack.execute (.push type) = stack.push type := rfl

theorem execute_typed {stack : OperandStack} {below : List OperandType} {operator : Operator}
    {type : OperandType} (operands : List OperandType) (parts : stack.entries = below ++ operands)
    (count : operands.length = operator.arity) (room : below.length < frameLimit)
    (typed : resultOf operator operands = .ok type) :
    stack.execute (.apply operator) =
      .accept () ⟨below ++ [type], max stack.maxDepth (below.length + 1)⟩
        (.pushed type (below.length + 1)) := by
  rw [execute, apply_operands parts count room, typed]
  rfl

theorem execute_refused {stack : OperandStack} {below : List OperandType} {operator : Operator}
    {fault : Fault} (operands : List OperandType) (parts : stack.entries = below ++ operands)
    (count : operands.length = operator.arity) (room : below.length < frameLimit)
    (refused : resultOf operator operands = .error fault) :
    stack.execute (.apply operator) = .refuse stack fault := by
  rw [execute, apply_operands parts count room, refused]
  rfl

theorem run_append (stack : OperandStack) (first second : List Instruction) :
    stack.run (first ++ second) = match (stack.run first).answer with
      | .error fault => ⟨.error fault, (stack.run first).state, (stack.run first).events⟩
      | .ok () =>
        let later := (stack.run first).state.run second
        ⟨later.answer, later.state, (stack.run first).events ++ later.events⟩ := by
  induction first generalizing stack with
  | nil => rfl
  | cons instruction rest ih =>
    simp only [List.cons_append, run]
    cases step : (stack.execute instruction).answer with
    | error fault => rfl
    | ok done =>
      simp only [ih]
      cases (run (stack.execute instruction).state rest).answer with
      | error fault => rfl
      | ok finished => simp only [List.append_assoc]

def Reaches (stack : OperandStack) (program : List Instruction) (next : OperandStack) : Prop :=
  (stack.run program).answer = .ok () ∧ (stack.run program).state = next

theorem Reaches.step {stack next : OperandStack} {instruction : Instruction} {event : Event}
    (accepted : stack.execute instruction = .accept () next event) :
    stack.Reaches [instruction] next := by
  simp only [Reaches, run, accepted]
  exact ⟨rfl, rfl⟩

theorem Reaches.append {stack middle next : OperandStack} {first second : List Instruction}
    (one : stack.Reaches first middle) (two : middle.Reaches second next) :
    stack.Reaches (first ++ second) next := by
  obtain ⟨finished, rfl⟩ := one
  simp only [Reaches, run_append, finished]
  exact two

theorem Reaches.fault {stack middle : OperandStack} {first second : List Instruction}
    {fault : Fault} (one : stack.Reaches first middle)
    (failed : (middle.run second).answer = .error fault) :
    (stack.run (first ++ second)).answer = .error fault := by
  obtain ⟨finished, rfl⟩ := one
  simp only [run_append, finished, failed]

theorem run_append_fault {stack : OperandStack} {first second : List Instruction} {fault : Fault}
    (failed : (stack.run first).answer = .error fault) :
    (stack.run (first ++ second)).answer = .error fault := by
  rw [run_append, failed]

theorem run_cons_fault {stack : OperandStack} {instruction : Instruction}
    {rest : List Instruction} {fault : Fault}
    (failed : (stack.execute instruction).answer = .error fault) :
    (stack.run (instruction :: rest)).answer = .error fault := by
  simp only [run, failed]

theorem run_cons_done {stack : OperandStack} {instruction : Instruction}
    {rest : List Instruction} (finished : (stack.run (instruction :: rest)).answer = .ok ()) :
    (stack.execute instruction).answer = .ok () ∧
      ((stack.execute instruction).state.run rest).answer = .ok () ∧
      (stack.run (instruction :: rest)).state =
        ((stack.execute instruction).state.run rest).state := by
  cases first : (stack.execute instruction).answer with
  | error fault =>
    rw [run_cons_fault first] at finished
    cases finished
  | ok done =>
    simp only [run, first] at finished ⊢
    exact ⟨trivial, finished, trivial⟩

end MethodFrame.OperandStack
