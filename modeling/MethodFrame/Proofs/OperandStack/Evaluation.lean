import MethodFrame.Proofs.OperandStack.Steps

-- Running the postorder of an expression tree on a stack: it yields the type that the tree has, it
-- needs exactly the room that the tree needs, and the first fault is the one met first on the way.
namespace MethodFrame

def Instruction.level (depth : Nat) : Instruction → Nat
  | .push _ => depth + 1
  | .apply operator => depth + 1 - operator.arity

def Instruction.highest (depth : Nat) : List Instruction → Nat
  | [] => depth
  | instruction :: rest => max depth (highest (instruction.level depth) rest)

namespace Expr

-- Where typing breaks: it accepts all the steps in front of one operator and
-- refuses that one. The right operand is only looked at behind a typed left one.
inductive Breaks : Expr → List Instruction → Operator → Fault → Prop where
  | unary {operator : Operator} {operand : Expr} {type : OperandType} {fault : Fault}
      (typed : operand.infer = .ok type) (refused : Typing.unary operator type = .error fault) :
      Breaks (.unary operator operand) operand.postorder operator fault
  | operand {outer operator : Operator} {operand : Expr} {done : List Instruction} {fault : Fault}
      (inner : Breaks operand done operator fault) :
      Breaks (.unary outer operand) done operator fault
  | binary {operator : Operator} {left right : Expr} {leftType rightType : OperandType}
      {fault : Fault} (typedLeft : left.infer = .ok leftType)
      (typedRight : right.infer = .ok rightType)
      (refused : Typing.binary operator leftType rightType = .error fault) :
      Breaks (.binary operator left right) (left.postorder ++ right.postorder) operator fault
  | left {outer operator : Operator} {left right : Expr} {done : List Instruction} {fault : Fault}
      (inner : Breaks left done operator fault) :
      Breaks (.binary outer left right) done operator fault
  | right {outer operator : Operator} {left right : Expr} {leftType : OperandType}
      {done : List Instruction} {fault : Fault} (typed : left.infer = .ok leftType)
      (inner : Breaks right done operator fault) :
      Breaks (.binary outer left right) (left.postorder ++ done) operator fault

theorem breaks_of_infer {tree : Expr} {fault : Fault} (untyped : tree.infer = .error fault) :
    ∃ done operator, tree.Breaks done operator fault := by
  induction tree with
  | leaf type => cases untyped
  | unary operator operand ih =>
    simp only [infer] at untyped
    cases inner : operand.infer with
    | error first =>
      simp only [inner, Except.error.injEq] at untyped
      obtain ⟨done, place, broken⟩ := ih (inner.trans (congrArg Except.error untyped))
      exact ⟨done, place, .operand broken⟩
    | ok type => exact ⟨_, operator, .unary inner (by simpa [inner] using untyped)⟩
  | binary operator left right ihl ihr =>
    simp only [infer] at untyped
    cases first : left.infer with
    | error early =>
      simp only [first, Except.error.injEq] at untyped
      obtain ⟨done, place, broken⟩ := ihl (first.trans (congrArg Except.error untyped))
      exact ⟨done, place, .left broken⟩
    | ok leftType =>
      cases second : right.infer with
      | error late =>
        simp only [first, second, Except.error.injEq] at untyped
        obtain ⟨done, place, broken⟩ := ihr (second.trans (congrArg Except.error untyped))
        exact ⟨_, place, .right first broken⟩
      | ok rightType =>
        exact ⟨_, operator, .binary first second (by simpa [first, second] using untyped)⟩

theorem Breaks.postorder {tree : Expr} {done : List Instruction} {operator : Operator}
    {fault : Fault} (broken : tree.Breaks done operator fault) :
    ∃ rest, tree.postorder = done ++ .apply operator :: rest := by
  induction broken with
  | unary typed refused => exact ⟨[], rfl⟩
  | @operand outer _ _ _ _ inner ih =>
    obtain ⟨rest, opened⟩ := ih
    exact ⟨rest ++ [.apply outer], by simp [Expr.postorder, opened]⟩
  | binary typedLeft typedRight refused => exact ⟨[], rfl⟩
  | @left outer _ _ right _ _ inner ih =>
    obtain ⟨rest, opened⟩ := ih
    exact ⟨rest ++ right.postorder ++ [.apply outer], by simp [Expr.postorder, opened]⟩
  | @right outer _ _ _ _ _ _ typed inner ih =>
    obtain ⟨rest, opened⟩ := ih
    exact ⟨rest ++ [.apply outer], by simp [Expr.postorder, opened]⟩

theorem need_pos (tree : Expr) : 1 ≤ tree.need := by
  induction tree with
  | leaf type => exact Nat.le_refl 1
  | unary operator operand ih => exact ih
  | binary operator left right ihl ihr => exact Nat.le_trans ihl (Nat.le_max_left _ _)

end Expr

namespace Instruction

theorem le_highest (depth : Nat) (program : List Instruction) : depth ≤ highest depth program := by
  cases program with
  | nil => exact Nat.le_refl depth
  | cons instruction rest => exact Nat.le_max_left _ _

theorem highest_append (depth : Nat) (first second : List Instruction) :
    highest depth (first ++ second) =
      max (highest depth first) (highest (first.foldl level depth) second) := by
  induction first generalizing depth with
  | nil => exact (Nat.max_eq_right (le_highest depth second)).symm
  | cons instruction rest ih =>
    simp only [List.cons_append, highest, List.foldl_cons, ih, Nat.max_assoc]

theorem level_postorder {tree : Expr} (fits : tree.WellFormed) (depth : Nat) :
    tree.postorder.foldl level depth = depth + 1 := by
  induction tree generalizing depth with
  | leaf type => rfl
  | unary operator operand ih =>
    simp [Expr.postorder, List.foldl_append, ih fits.2, level, fits.1]
  | binary operator left right ihl ihr =>
    simp [Expr.postorder, List.foldl_append, ihl fits.2.1, ihr fits.2.2, level, fits.1]

theorem highest_postorder {tree : Expr} (fits : tree.WellFormed) (depth : Nat) :
    highest depth tree.postorder = depth + tree.need := by
  induction tree generalizing depth with
  | leaf type => simp [Expr.postorder, highest, level, Expr.need]
  | unary operator operand ih =>
    have positive := operand.need_pos
    simp only [Expr.postorder, highest_append, ih fits.2, level_postorder fits.2, highest, level,
      fits.1, Expr.need]
    omega
  | binary operator left right ihl ihr =>
    have positive := right.need_pos
    simp only [Expr.postorder, highest_append, ihl fits.2.1, ihr fits.2.2, List.foldl_append,
      level_postorder fits.2.1, level_postorder fits.2.2, highest, level, fits.1, Expr.need]
    omega

theorem highest_behind {tree : Expr} (fits : tree.WellFormed) (depth : Nat)
    (later : List Instruction) : highest depth (tree.postorder ++ later) =
      max (depth + tree.need) (highest (depth + 1) later) := by
  rw [highest_append, highest_postorder fits, level_postorder fits]

end Instruction

theorem Expr.Breaks.highest_le {tree : Expr} {done : List Instruction} {operator : Operator}
    {fault : Fault} (broken : tree.Breaks done operator fault) (fits : tree.WellFormed)
    (depth : Nat) : Instruction.highest depth done ≤ depth + tree.need := by
  obtain ⟨rest, opened⟩ := broken.postorder
  rw [← Instruction.highest_postorder fits depth, opened, Instruction.highest_append]
  exact Nat.le_max_left _ _

namespace OperandStack

def extend (stack : OperandStack) (type : OperandType) (need : Nat) : OperandStack :=
  ⟨stack.entries ++ [type], max stack.maxDepth (stack.depth + need)⟩

theorem depth_extend (stack : OperandStack) (type : OperandType) (need : Nat) :
    (stack.extend type need).depth = stack.depth + 1 := by
  simp [extend, depth]

theorem entries_extend (stack : OperandStack) (type : OperandType) (need : Nat) :
    (stack.extend type need).entries = stack.entries ++ [type] := rfl

theorem entries_extend_extend (stack : OperandStack) (left right : OperandType)
    (first second : Nat) : ((stack.extend left first).extend right second).entries =
      stack.entries ++ [left, right] := by
  simp [extend]

theorem room_below {stack : OperandStack} {need : Nat} (positive : 1 ≤ need)
    (room : stack.depth + need ≤ frameLimit) : stack.entries.length < frameLimit := by
  rw [depth] at room
  omega

theorem run_typed (stack : OperandStack) {tree : Expr} (fits : tree.WellFormed)
    {type : OperandType} (typed : tree.infer = .ok type)
    (room : stack.depth + tree.need ≤ frameLimit) :
    stack.Reaches tree.postorder (stack.extend type tree.need) := by
  induction tree generalizing stack type with
  | leaf pushed =>
    cases typed
    exact .step (push_room room pushed)
  | unary operator operand ih =>
    obtain ⟨inner, typedInner, applied⟩ := Expr.infer_unary_exact.mp typed
    have positive := operand.need_pos
    have below := room_below (Expr.need_pos _) room
    simp only [Expr.need] at room ⊢
    have one := ih stack fits.2 typedInner room
    have step := execute_typed [inner] (stack.entries_extend inner operand.need) fits.1.symm
      below applied
    have next : max (stack.extend inner operand.need).maxDepth (stack.entries.length + 1) =
        max stack.maxDepth (stack.depth + operand.need) := by
      simp only [extend, depth]
      omega
    rw [next] at step
    exact one.append (.step step)
  | binary operator left right ihl ihr =>
    obtain ⟨leftType, rightType, typedLeft, typedRight, applied⟩ := Expr.infer_binary_exact.mp typed
    have positive := right.need_pos
    have below := room_below (Expr.need_pos _) room
    simp only [Expr.need] at room ⊢
    have one := ihl stack fits.2.1 typedLeft (by omega)
    have two := ihr (stack.extend leftType left.need) fits.2.2 typedRight
      (by rw [depth_extend]; omega)
    have step := execute_typed [leftType, rightType]
      (stack.entries_extend_extend leftType rightType left.need right.need) fits.1.symm
      below applied
    have next : max ((stack.extend leftType left.need).extend rightType right.need).maxDepth
        (stack.entries.length + 1) =
        max stack.maxDepth (stack.depth + max left.need (1 + right.need)) := by
      simp only [extend, depth, List.length_append, List.length_singleton]
      omega
    rw [next] at step
    exact (one.append two).append (.step step)

theorem run_overflow (stack : OperandStack) {tree : Expr} (fits : tree.WellFormed)
    {type : OperandType} (typed : tree.infer = .ok type)
    (short : frameLimit < stack.depth + tree.need) :
    (stack.run tree.postorder).answer = .error (.stackOverflow frameLimit) := by
  induction tree generalizing stack type with
  | leaf pushed =>
    have full : frameLimit ≤ stack.depth := Nat.le_of_lt_succ short
    refine run_cons_fault ?_
    rw [execute_push, push_full full]
    rfl
  | unary operator operand ih =>
    obtain ⟨inner, typedInner, _⟩ := Expr.infer_unary_exact.mp typed
    exact run_append_fault (ih stack fits.2 typedInner short)
  | binary operator left right ihl ihr =>
    obtain ⟨leftType, rightType, typedLeft, typedRight, _⟩ := Expr.infer_binary_exact.mp typed
    refine run_append_fault ?_
    by_cases room : stack.depth + left.need ≤ frameLimit
    · refine (run_typed stack fits.2.1 typedLeft room).fault (ihr _ fits.2.2 typedRight ?_)
      simp only [Expr.need] at short
      rw [depth_extend]
      omega
    · exact run_append_fault (ihl stack fits.2.1 typedLeft (Nat.lt_of_not_le room))

theorem run_overflow_behind (stack : OperandStack) {tree : Expr} (fits : tree.WellFormed)
    {type : OperandType} (typed : tree.infer = .ok type) {later : List Instruction}
    (short : stack.depth + tree.need ≤ frameLimit →
      ((stack.extend type tree.need).run later).answer = .error (.stackOverflow frameLimit)) :
    (stack.run (tree.postorder ++ later)).answer = .error (.stackOverflow frameLimit) := by
  by_cases room : stack.depth + tree.need ≤ frameLimit
  · exact (run_typed stack fits typed room).fault (short room)
  · exact run_append_fault (run_overflow stack fits typed (Nat.lt_of_not_le room))

theorem run_broken (stack : OperandStack) {tree : Expr} (fits : tree.WellFormed)
    {done : List Instruction} {operator : Operator} {fault : Fault}
    (broken : tree.Breaks done operator fault)
    (room : Instruction.highest stack.depth done ≤ frameLimit) :
    ∃ middle, stack.Reaches done middle ∧
      middle.execute (.apply operator) = .refuse middle fault := by
  induction broken generalizing stack with
  | @unary operator operand type fault typed refused =>
    rw [Instruction.highest_postorder fits.2] at room
    exact ⟨_, run_typed stack fits.2 typed room,
      execute_refused [type] (stack.entries_extend type operand.need) fits.1.symm
        (room_below operand.need_pos room) refused⟩
  | operand inner ih => exact ih stack fits.2 room
  | @binary operator left right leftType rightType fault typedLeft typedRight refused =>
    rw [Instruction.highest_behind fits.2.1, Instruction.highest_postorder fits.2.2] at room
    have below := room_below left.need_pos (Nat.le_trans (Nat.le_max_left _ _) room)
    have one := run_typed stack fits.2.1 typedLeft (by omega)
    have two := run_typed (stack.extend leftType left.need) fits.2.2 typedRight
      (by rw [depth_extend]; omega)
    exact ⟨_, one.append two, execute_refused [leftType, rightType]
      (stack.entries_extend_extend leftType rightType left.need right.need) fits.1.symm
      below refused⟩
  | left inner ih => exact ih stack fits.2.1 room
  | @right outer operator left right leftType done fault typed inner ih =>
    rw [Instruction.highest_behind fits.2.1] at room
    have one := run_typed stack fits.2.1 typed (by omega)
    obtain ⟨middle, two, refused⟩ := ih (stack.extend leftType left.need) fits.2.2
      (by rw [depth_extend]; omega)
    exact ⟨middle, one.append two, refused⟩

theorem run_broken_overflow (stack : OperandStack) {tree : Expr} (fits : tree.WellFormed)
    {done : List Instruction} {operator : Operator} {fault : Fault}
    (broken : tree.Breaks done operator fault)
    (short : frameLimit < Instruction.highest stack.depth done) :
    (stack.run done).answer = .error (.stackOverflow frameLimit) := by
  induction broken generalizing stack with
  | unary typed refused =>
    rw [Instruction.highest_postorder fits.2] at short
    exact run_overflow stack fits.2 typed short
  | operand inner ih => exact ih stack fits.2 short
  | @binary operator left right leftType rightType fault typedLeft typedRight refused =>
    rw [Instruction.highest_behind fits.2.1, Instruction.highest_postorder fits.2.2] at short
    refine run_overflow_behind stack fits.2.1 typedLeft (fun room => ?_)
    refine run_overflow _ fits.2.2 typedRight ?_
    rw [depth_extend]
    omega
  | left inner ih => exact ih stack fits.2.1 short
  | @right outer operator left right leftType done fault typed inner ih =>
    rw [Instruction.highest_behind fits.2.1] at short
    refine run_overflow_behind stack fits.2.1 typed (fun room => ih _ fits.2.2 ?_)
    rw [depth_extend]
    omega

theorem run_untyped (stack : OperandStack) {tree : Expr} (fits : tree.WellFormed)
    {done : List Instruction} {operator : Operator} {fault : Fault}
    (broken : tree.Breaks done operator fault) :
    (stack.run tree.postorder).answer =
      if frameLimit < Instruction.highest stack.depth done then
        .error (.stackOverflow frameLimit) else .error fault := by
  obtain ⟨rest, opened⟩ := broken.postorder
  rw [opened]
  split
  · rename_i short
    exact run_append_fault (run_broken_overflow stack fits broken short)
  · rename_i enough
    obtain ⟨middle, reached, refused⟩ := run_broken stack fits broken (Nat.le_of_not_lt enough)
    refine reached.fault (run_cons_fault ?_)
    rw [refused]
    rfl

-- The last case names the place where typing breaks: the overflow wins exactly
-- if the steps in front of that place already need more room than there is.
theorem run_postorder (stack : OperandStack) {tree : Expr} (fits : tree.WellFormed) :
    ((stack.run tree.postorder).answer = .ok () ↔
      ∃ type, tree.infer = .ok type ∧ stack.depth + tree.need ≤ frameLimit) ∧
    (∀ type, tree.infer = .ok type → stack.depth + tree.need ≤ frameLimit →
      (stack.run tree.postorder).state =
        ⟨stack.entries ++ [type], max stack.maxDepth (stack.depth + tree.need)⟩) ∧
    (∀ type, tree.infer = .ok type → frameLimit < stack.depth + tree.need →
      (stack.run tree.postorder).answer = .error (.stackOverflow frameLimit)) ∧
    (∀ fault, tree.infer = .error fault → stack.depth + tree.need ≤ frameLimit →
      (stack.run tree.postorder).answer = .error fault) ∧
    ∀ fault, tree.infer = .error fault → frameLimit < stack.depth + tree.need →
      ∃ done operator rest, tree.postorder = done ++ .apply operator :: rest ∧
        tree.Breaks done operator fault ∧
        (stack.run tree.postorder).answer =
          if frameLimit < Instruction.highest stack.depth done then
            .error (.stackOverflow frameLimit) else .error fault := by
  refine ⟨⟨?_, ?_⟩, ?_, ?_, ?_, ?_⟩
  · intro finished
    cases typed : tree.infer with
    | error fault =>
      obtain ⟨done, operator, broken⟩ := Expr.breaks_of_infer typed
      rw [run_untyped stack fits broken] at finished
      split at finished <;> cases finished
    | ok type =>
      refine ⟨type, rfl, Nat.le_of_not_lt (fun short => ?_)⟩
      rw [run_overflow stack fits typed short] at finished
      cases finished
  · intro fitting
    obtain ⟨type, typed, room⟩ := fitting
    exact (run_typed stack fits typed room).1
  · intro type typed room
    exact (run_typed stack fits typed room).2
  · intro type typed short
    exact run_overflow stack fits typed short
  · intro fault untyped room
    obtain ⟨done, operator, broken⟩ := Expr.breaks_of_infer untyped
    have part := broken.highest_le fits stack.depth
    rw [run_untyped stack fits broken, if_neg (by omega)]
  · intro fault untyped _
    obtain ⟨done, operator, broken⟩ := Expr.breaks_of_infer untyped
    obtain ⟨rest, opened⟩ := broken.postorder
    exact ⟨done, operator, rest, opened, broken, run_untyped stack fits broken⟩

theorem run_postorder_product :
    (Expr.binary .add (.leaf .int) (.binary .mul (.leaf .strongInt) (.leaf .float))).WellFormed ∧
    (run ⟨[.string], 2⟩ (Expr.binary .add (.leaf .int)
      (.binary .mul (.leaf .strongInt) (.leaf .float))).postorder).state =
        ⟨[.string, .float], 4⟩ := by
  have fits : (Expr.binary .add (.leaf .int)
      (.binary .mul (.leaf .strongInt) (.leaf .float))).WellFormed :=
    ⟨rfl, trivial, rfl, trivial, trivial⟩
  exact ⟨fits, (run_postorder ⟨[.string], 2⟩ fits).2.1 .float rfl (by decide)⟩

end OperandStack
end MethodFrame
