import MethodFrame.Proofs.OperandStack.Evaluation
import MethodFrame.Proofs.OperandStack.Transition

-- Every program that runs through on an empty stack is the postorder of a row of expression trees,
-- one for each entry that it leaves, and of one such row only.
namespace MethodFrame

namespace Expr

-- Steps read back into trees. The trees that are finished wait with the latest in front.
def regrow (grown : List Expr) : Instruction → List Expr
  | .push type => .leaf type :: grown
  | .apply operator => match operator.arity, grown with
    | 1, operand :: rest => .unary operator operand :: rest
    | 2, right :: left :: rest => .binary operator left right :: rest
    | _, _ => grown

theorem regrow_postorder {tree : Expr} (fits : tree.WellFormed) (grown : List Expr) :
    tree.postorder.foldl regrow grown = tree :: grown := by
  induction tree generalizing grown with
  | leaf type => rfl
  | unary operator operand ih =>
    simp [postorder, List.foldl_append, ih fits.2, regrow, fits.1]
  | binary operator left right ihl ihr =>
    simp [postorder, List.foldl_append, ihl fits.2.1, ihr fits.2.2, regrow, fits.1]

structure Lays (forest : List Expr) (program : List Instruction) : Prop where
  fits : ∀ tree ∈ forest, tree.WellFormed
  steps : forest.flatMap postorder = program

theorem regrow_forest {forest : List Expr} (fits : ∀ tree ∈ forest, tree.WellFormed)
    (grown : List Expr) :
    (forest.flatMap postorder).foldl regrow grown = forest.reverse ++ grown := by
  induction forest generalizing grown with
  | nil => rfl
  | cons tree rest ih =>
    obtain ⟨first, others⟩ := List.forall_mem_cons.mp fits
    rw [List.flatMap_cons, List.foldl_append, regrow_postorder first, ih others]
    simp

theorem Lays.unique {forest other : List Expr} {program : List Instruction}
    (lays : Lays forest program) (again : Lays other program) : other = forest := by
  have one := regrow_forest lays.fits []
  have two := regrow_forest again.fits []
  rw [lays.steps] at one
  rw [again.steps, one] at two
  simpa using two.symm

theorem Lays.snoc {forest : List Expr} {before : List Instruction} (lays : Lays forest before)
    {tree : Expr} (fits : tree.WellFormed) :
    Lays (forest ++ [tree]) (before ++ tree.postorder) := by
  refine ⟨List.forall_mem_append.mpr ⟨lays.fits, List.forall_mem_singleton.mpr fits⟩, ?_⟩
  rw [List.flatMap_append, lays.steps, List.flatMap_singleton]

def peak (forest : List Expr) : Nat :=
  (forest.mapIdx (fun place tree => place + tree.need)).foldl max 0

theorem peak_snoc (forest : List Expr) (tree : Expr) :
    peak (forest ++ [tree]) = max (peak forest) (forest.length + tree.need) := by
  rw [peak, List.mapIdx_concat, List.foldl_append]
  rfl

structure Joins (operands : List Expr) (operator : Operator) (node : Expr) : Prop where
  fits : node.WellFormed
  steps : node.postorder = operands.flatMap postorder ++ [.apply operator]
  peak : ∀ lower, peak (lower ++ [node]) = peak (lower ++ operands)

theorem joins_unary {operator : Operator} (one : operator.arity = 1) {operand : Expr}
    (fits : operand.WellFormed) : Joins [operand] operator (.unary operator operand) := by
  refine ⟨⟨one, fits⟩, ?_, fun lower => ?_⟩
  · simp [postorder]
  · rw [peak_snoc, peak_snoc, need]

theorem joins_binary {operator : Operator} (two : operator.arity = 2) {left right : Expr}
    (leftFits : left.WellFormed) (rightFits : right.WellFormed) :
    Joins [left, right] operator (.binary operator left right) := by
  refine ⟨⟨two, leftFits, rightFits⟩, ?_, fun lower => ?_⟩
  · simp [postorder]
  · have apart : lower ++ [left, right] = lower ++ [left] ++ [right] := List.append_cons ..
    rw [apart, peak_snoc, peak_snoc, peak_snoc, List.length_append, List.length_singleton, need]
    omega

end Expr

namespace OperandStack

-- Evaluating the trees one above the other reaches the largest depth.
structure Holds (stack : OperandStack) (forest : List Expr) : Prop where
  types : forest.map Expr.infer = stack.entries.map .ok
  mark : stack.maxDepth = Expr.peak forest

theorem Holds.length {stack : OperandStack} {forest : List Expr} (holds : stack.Holds forest) :
    forest.length = stack.entries.length := by
  simpa using congrArg List.length holds.types

theorem Holds.snoc {stack : OperandStack} {lower : List Expr} {below : List OperandType}
    (types : lower.map Expr.infer = below.map .ok) {tree : Expr} {type : OperandType}
    (typed : tree.infer = .ok type)
    (mark : max stack.maxDepth (below.length + 1) = Expr.peak (lower ++ [tree])) :
    (stack.put below type).Holds (lower ++ [tree]) := by
  refine ⟨?_, mark⟩
  simp [put, types, typed]

theorem node_of_operands {operator : Operator} {trees : List Expr} {operands : List OperandType}
    {type : OperandType} (fits : ∀ tree ∈ trees, tree.WellFormed)
    (types : trees.map Expr.infer = operands.map .ok) (count : operands.length = operator.arity)
    (typed : resultOf operator operands = .ok type) :
    ∃ node, Expr.Joins trees operator node ∧ node.infer = .ok type := by
  rcases operands_cases (present_of_result count typed) count with
    ⟨operand, rfl⟩ | ⟨left, right, rfl⟩
  · obtain ⟨tree, rfl, inner⟩ := List.map_eq_singleton_iff.mp types
    exact ⟨_, Expr.joins_unary count.symm (fits tree List.mem_cons_self),
      Expr.infer_unary_exact.mpr ⟨operand, inner, typed⟩⟩
  · obtain ⟨first, _, rfl, firstTyped, rest⟩ := List.map_eq_cons_iff.mp types
    obtain ⟨second, rfl, secondTyped⟩ := List.map_eq_singleton_iff.mp rest
    obtain ⟨firstFits, others⟩ := List.forall_mem_cons.mp fits
    exact ⟨_, Expr.joins_binary count.symm firstFits (others second List.mem_cons_self),
      Expr.infer_binary_exact.mpr ⟨left, right, firstTyped, secondTyped, typed⟩⟩

theorem Holds.join {stack : OperandStack} {forest : List Expr} {before : List Instruction}
    (holds : stack.Holds forest) (lays : Expr.Lays forest before) {operator : Operator}
    {below operands : List OperandType} {type : OperandType}
    (parts : stack.entries = below ++ operands) (count : operands.length = operator.arity)
    (typed : resultOf operator operands = .ok type) :
    ∃ grown, Expr.Lays grown (before ++ [.apply operator]) ∧
      (stack.put below type).Holds grown := by
  have types := holds.types
  have mark := holds.mark
  obtain ⟨fits, rfl⟩ := lays
  rw [parts, List.map_append] at types
  obtain ⟨lower, upper, rfl, same, tops⟩ := List.map_eq_append_iff.mp types
  obtain ⟨lowerFits, upperFits⟩ := List.forall_mem_append.mp fits
  obtain ⟨node, joins, whole⟩ := node_of_operands upperFits tops count typed
  have base : Expr.Lays lower (lower.flatMap Expr.postorder) := ⟨lowerFits, rfl⟩
  refine ⟨lower ++ [node], ?_, Holds.snoc same whole ?_⟩
  · have laid := base.snoc joins.fits
    rwa [joins.steps, ← List.append_assoc, ← List.flatMap_append] at laid
  · have height : lower.length = below.length := by simpa using congrArg List.length same
    have positive := node.need_pos
    rw [mark, ← joins.peak, Expr.peak_snoc]
    omega

theorem Holds.step {stack : OperandStack} {forest : List Expr} {before : List Instruction}
    (holds : stack.Holds forest) (lays : Expr.Lays forest before) {instruction : Instruction}
    {outcome : Outcome OperandStack Answer} (step : stack.Step (.ofStep instruction) outcome)
    {answer : Answer} (accepted : outcome.answer = .ok answer) :
    ∃ grown, Expr.Lays grown (before ++ [instruction]) ∧ outcome.state.Holds grown := by
  cases instruction with
  | push type =>
    cases step with
    | overflow full => cases accepted
    | pushed room =>
      have leaf : (Expr.leaf type).WellFormed := trivial
      refine ⟨_, lays.snoc leaf, Holds.snoc holds.types rfl ?_⟩
      rw [holds.mark, Expr.peak_snoc, holds.length]
      rfl
  | apply operator =>
    cases step with
    | underflow short => cases accepted
    | untyped parts count refused => cases accepted
    | applied parts count typed => exact holds.join lays parts count typed

theorem run_holds {stack : OperandStack} {forest : List Expr} {before program : List Instruction}
    (bounded : stack.Bounded) (holds : stack.Holds forest)
    (lays : Expr.Lays forest before) (finished : (stack.run program).answer = .ok ()) :
    ∃ grown, Expr.Lays grown (before ++ program) ∧ (stack.run program).state.Holds grown := by
  induction program generalizing stack forest before with
  | nil => exact ⟨forest, by rwa [List.append_nil], holds⟩
  | cons instruction rest ih =>
    obtain ⟨accepted, later, same⟩ := run_cons_done finished
    rw [execute_perform] at accepted later same
    obtain ⟨answer, given, _⟩ := Outcome.map_ok.mp accepted
    have step := perform_step bounded (.ofStep instruction)
    obtain ⟨grown, laid, held⟩ := holds.step lays step given
    obtain ⟨forest, whole, final⟩ := ih (step.bounded bounded) held laid later
    rw [List.append_assoc] at whole
    rw [same]
    exact ⟨forest, whole, final⟩

theorem run_forest {program : List Instruction} (finished : (empty.run program).answer = .ok ()) :
    ∃ forest, Expr.Lays forest program ∧ (∀ other, Expr.Lays other program → other = forest) ∧
      forest.map Expr.infer = (empty.run program).state.entries.map .ok ∧
      (empty.run program).state.maxDepth = Expr.peak forest := by
  have nothing : empty.Holds [] := ⟨rfl, rfl⟩
  have blank : Expr.Lays [] [] := ⟨List.forall_mem_nil _, rfl⟩
  obtain ⟨forest, lays, holds⟩ := run_holds empty_bounded nothing blank finished
  exact ⟨forest, lays, fun other again => lays.unique again, holds.types, holds.mark⟩

theorem run_forest_two :
    (empty.run [.push .int, .push .float, .apply .mul, .push .int, .push .strongInt, .apply .lt,
      .apply .not]).answer = .ok () ∧
    ∃ forest, Expr.Lays forest [.push .int, .push .float, .apply .mul, .push .int,
        .push .strongInt, .apply .lt, .apply .not] ∧
      forest.map Expr.infer = [.ok .float, .ok .int] ∧ Expr.peak forest = 3 := by
  obtain ⟨forest, lays, _, types, mark⟩ := run_forest (show (empty.run [.push .int, .push .float,
    .apply .mul, .push .int, .push .strongInt, .apply .lt, .apply .not]).answer = .ok () from rfl)
  exact ⟨rfl, forest, lays, types, mark.symm⟩

end OperandStack
end MethodFrame
