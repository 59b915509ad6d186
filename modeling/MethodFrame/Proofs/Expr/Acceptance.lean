import MethodFrame.Expr

-- Which trees typing accepts, and with what type, read off the whole tree.
namespace MethodFrame

namespace Operator

def floating : List Operator := [.add, .sub, .mul, .div]

def whole : List Operator := [.mod, .and, .or, .not]

def equating : List Operator := [.eq, .ne]

def arithmetic : List Operator := [.add, .sub, .mul, .div, .mod]

end Operator

namespace Typing

structure Accepts (operator : Operator) (left right : OperandType) : Prop where
  filled : left ≠ .void ∧ right ≠ .void
  texts : left = .string ∨ right = .string →
    operator ∈ Operator.equating ∧ left = .string ∧ right = .string
  whole : operator ∈ Operator.whole → left ≠ .float ∧ right ≠ .float

theorem accepts_parts {operator : Operator} {left right : OperandType} :
    Accepts operator left right ↔ (left ≠ .void ∧ right ≠ .void) ∧
      (left = .string ∨ right = .string →
        operator ∈ Operator.equating ∧ left = .string ∧ right = .string) ∧
      (operator ∈ Operator.whole → left ≠ .float ∧ right ≠ .float) :=
  ⟨fun accepts => ⟨accepts.filled, accepts.texts, accepts.whole⟩,
    fun parts => ⟨parts.1, parts.2.1, parts.2.2⟩⟩

theorem result_accepts {operator : Operator} (two : operator.arity = 2) (left right : OperandType) :
    (∃ type, result? operator left right = some type) ↔ Accepts operator left right := by
  rw [← Option.isSome_iff_exists, accepts_parts]
  cases operator with
  | not => cases two
  | none => cases two
  | _ => cases left <;> cases right <;> decide

theorem binary_accepts {operator : Operator} (two : operator.arity = 2)
    (left right : OperandType) :
    (∃ type, binary operator left right = .ok type) ↔ Accepts operator left right := by
  simp only [binary_exact, two, true_and]
  exact result_accepts two left right

theorem unary_not {operand type : OperandType} :
    unary .not operand = .ok type ↔
      type = .int ∧ operand ≠ .void ∧ operand ≠ .string ∧ operand ≠ .float := by
  cases operand <;> simp [unary, checkArity, Operator.arity, OperandType.isIntegral, eq_comm]

structure Yields (operator : Operator) (left right type : OperandType) : Prop where
  float : type = .float ↔ operator ∈ Operator.floating ∧ (left = .float ∨ right = .float)
  strong : type = .strongInt ↔
    operator ∈ Operator.arithmetic ∧ left = .strongInt ∧ right = .strongInt
  number : type ≠ .void ∧ type ≠ .string

theorem binary_yields {operator : Operator} (two : operator.arity = 2)
    {left right type : OperandType} (typed : binary operator left right = .ok type) :
    Yields operator left right type := by
  obtain ⟨_, typed⟩ := binary_exact.mp typed
  cases operator with
  | not => cases two
  | none => cases two
  | _ =>
    cases left <;> cases right <;> cases typed <;> exact ⟨by decide, by decide, by decide⟩

end Typing

namespace Expr

def subtrees : Expr → List Expr
  | .leaf type => [.leaf type]
  | .unary operator operand => .unary operator operand :: operand.subtrees
  | .binary operator left right => .binary operator left right :: (left.subtrees ++ right.subtrees)

def operators : Expr → List Operator
  | .leaf _ => []
  | .unary operator operand => operator :: operand.operators
  | .binary operator left right => operator :: (left.operators ++ right.operators)

def leaves : Expr → List OperandType
  | .leaf type => [type]
  | .unary _ operand => operand.leaves
  | .binary _ left right => left.leaves ++ right.leaves

def root? : Expr → Option Operator
  | .leaf _ => none
  | .unary operator _ | .binary operator _ _ => some operator

def operands : Expr → List Expr
  | .leaf _ => []
  | .unary _ operand => [operand]
  | .binary _ left right => [left, right]

-- A float leaf can be reached from the root through nothing but `+ - * /`.
inductive FloatValued : Expr → Prop where
  | leaf : FloatValued (.leaf .float)
  | left {operator : Operator} {left right : Expr} (through : operator ∈ Operator.floating)
      (reached : FloatValued left) : FloatValued (.binary operator left right)
  | right {operator : Operator} {left right : Expr} (through : operator ∈ Operator.floating)
      (reached : FloatValued right) : FloatValued (.binary operator left right)

def Strong (tree : Expr) : Prop :=
  (∀ operator ∈ tree.operators, operator ∈ Operator.arithmetic) ∧
    ∀ leaf ∈ tree.leaves, leaf = .strongInt

structure Fits (node : Expr) : Prop where
  filled : .leaf .void ∉ node.operands
  texts : .leaf .string ∈ node.operands → ∃ operator ∈ Operator.equating,
    node = .binary operator (.leaf .string) (.leaf .string)
  whole : ∀ operator ∈ Operator.whole, node.root? = some operator →
    ∀ operand ∈ node.operands, ¬operand.FloatValued

-- In a tree with an operator every leaf is an operand of some node, so that the
-- second field speaks of every string leaf.
structure Sound (tree : Expr) : Prop where
  filled : .void ∉ tree.leaves
  texts : ∀ node ∈ tree.subtrees, .leaf .string ∈ node.operands →
    ∃ operator ∈ Operator.equating, node = .binary operator (.leaf .string) (.leaf .string)
  whole : ∀ node ∈ tree.subtrees, ∀ operator ∈ Operator.whole, node.root? = some operator →
    ∀ operand ∈ node.operands, ¬operand.FloatValued

theorem mem_leaves {tree : Expr} {type : OperandType} : type ∈ tree.leaves ↔
    tree = .leaf type ∨ ∃ node ∈ tree.subtrees, .leaf type ∈ node.operands := by
  induction tree with
  | leaf own => simp [leaves, subtrees, operands, eq_comm]
  | unary operator operand ih =>
    simp [leaves, subtrees, operands, ih, eq_comm]
  | binary operator left right ihl ihr =>
    simp only [leaves, subtrees, List.mem_append, List.mem_cons, ihl, ihr]
    grind [operands]

theorem sound_exact {tree : Expr} (inner : tree.operators ≠ []) :
    tree.Sound ↔ ∀ node ∈ tree.subtrees, node.Fits := by
  constructor
  · intro sound node member
    refine ⟨fun empty => sound.filled (mem_leaves.mpr (.inr ⟨node, member, empty⟩)),
      sound.texts node member, sound.whole node member⟩
  · intro fits
    refine ⟨fun empty => ?_, fun node member => (fits node member).texts,
      fun node member => (fits node member).whole⟩
    rcases mem_leaves.mp empty with rfl | ⟨node, member, found⟩
    · exact inner rfl
    · exact (fits node member).filled found

structure Described (tree : Expr) (type : OperandType) : Prop where
  float : type = .float ↔ tree.FloatValued
  strong : type = .strongInt ↔ tree.Strong
  void : type = .void ↔ tree = .leaf .void
  string : type = .string ↔ tree = .leaf .string

theorem float_leaf {type : OperandType} : (leaf type).FloatValued ↔ type = .float := by
  constructor
  · intro reached
    cases reached
    rfl
  · rintro rfl
    exact .leaf

theorem float_unary {operator : Operator} {operand : Expr} :
    ¬(unary operator operand).FloatValued := by
  intro reached
  cases reached

theorem float_binary {operator : Operator} {left right : Expr} :
    (binary operator left right).FloatValued ↔
      operator ∈ Operator.floating ∧ (left.FloatValued ∨ right.FloatValued) := by
  constructor
  · intro reached
    cases reached with
    | left through reached => exact ⟨through, .inl reached⟩
    | right through reached => exact ⟨through, .inr reached⟩
  · intro reached
    obtain ⟨through, first | second⟩ := reached
    · exact .left through first
    · exact .right through second

theorem strong_binary {operator : Operator} {left right : Expr} :
    (binary operator left right).Strong ↔
      operator ∈ Operator.arithmetic ∧ left.Strong ∧ right.Strong := by
  simp only [Strong, operators, leaves, List.forall_mem_cons, List.forall_mem_append]
  constructor
  · intro strong
    exact ⟨strong.1.1, ⟨strong.1.2.1, strong.2.1⟩, strong.1.2.2, strong.2.2⟩
  · intro strong
    exact ⟨⟨strong.1, strong.2.1.1, strong.2.2.1⟩, strong.2.1.2, strong.2.2.2⟩

theorem strong_not {operand : Expr} : ¬(unary .not operand).Strong := by
  intro strong
  have own := strong.1 .not List.mem_cons_self
  simp [Operator.arithmetic] at own

theorem described {tree : Expr} (fits : tree.WellFormed) {type : OperandType}
    (typed : tree.infer = .ok type) : tree.Described type := by
  induction tree generalizing type with
  | leaf own =>
    cases typed
    refine ⟨float_leaf.symm, ?_, ?_, ?_⟩ <;> simp [Strong, operators, leaves]
  | unary operator operand ih =>
    obtain rfl := Operator.arity_one.mp fits.1
    obtain ⟨inner, _, applied⟩ := infer_unary_exact.mp typed
    obtain ⟨rfl, _⟩ := Typing.unary_not.mp applied
    refine ⟨?_, ?_, ?_, ?_⟩ <;> simp [float_unary, strong_not]
  | binary operator left right ihl ihr =>
    obtain ⟨leftType, rightType, typedLeft, typedRight, applied⟩ := infer_binary_exact.mp typed
    have first := ihl fits.2.1 typedLeft
    have second := ihr fits.2.2 typedRight
    have yields := Typing.binary_yields fits.1 applied
    refine ⟨?_, ?_, ?_, ?_⟩
    · rw [yields.float, float_binary, first.float, second.float]
    · rw [yields.strong, strong_binary, first.strong, second.strong]
    · simp [yields.number.1]
    · simp [yields.number.2]

theorem fits_leaf (type : OperandType) : (leaf type).Fits := by
  refine ⟨?_, ?_, ?_⟩ <;> simp [operands]

theorem fits_not {operand : Expr} {type : OperandType} (described : operand.Described type) :
    (unary .not operand).Fits ↔ type ≠ .void ∧ type ≠ .string ∧ type ≠ .float := by
  rw [Ne, Ne, Ne, described.void, described.string, described.float]
  constructor
  · intro fits
    refine ⟨fun empty => fits.filled ?_, fun text => ?_,
      fits.whole .not (by decide) rfl operand List.mem_cons_self⟩
    · rw [empty]
      exact List.mem_cons_self
    · rw [text] at fits
      obtain ⟨_, _, other⟩ := fits.texts List.mem_cons_self
      cases other
  · intro parts
    obtain ⟨filled, text, float⟩ := parts
    refine ⟨fun found => filled (List.mem_singleton.mp found).symm, fun found => ?_, ?_⟩
    · exact absurd (List.mem_singleton.mp found).symm text
    · rintro _ _ _ only member
      rw [List.mem_singleton.mp member]
      exact float

theorem leaf_operand {operator : Operator} {left right : Expr} {type : OperandType} :
    .leaf type ∈ (binary operator left right).operands ↔
      left = .leaf type ∨ right = .leaf type := by
  simp [operands, eq_comm]

theorem fits_parts {operator : Operator} {left right : Expr} :
    (binary operator left right).Fits ↔ (left ≠ .leaf .void ∧ right ≠ .leaf .void) ∧
      (left = .leaf .string ∨ right = .leaf .string →
        operator ∈ Operator.equating ∧ left = .leaf .string ∧ right = .leaf .string) ∧
      (operator ∈ Operator.whole → ¬left.FloatValued ∧ ¬right.FloatValued) := by
  constructor
  · intro fits
    refine ⟨⟨fun empty => fits.filled (leaf_operand.mpr (.inl empty)),
      fun empty => fits.filled (leaf_operand.mpr (.inr empty))⟩, fun text => ?_, fun whole => ?_⟩
    · obtain ⟨_, equating, same⟩ := fits.texts (leaf_operand.mpr text)
      cases same
      exact ⟨equating, rfl, rfl⟩
    · have refused := fits.whole operator whole rfl
      exact ⟨refused left List.mem_cons_self, refused right (by simp [operands])⟩
  · intro parts
    obtain ⟨filled, texts, whole⟩ := parts
    refine ⟨fun found => ?_, fun found => ?_, fun other needs same => ?_⟩
    · rcases leaf_operand.mp found with empty | empty
      · exact filled.1 empty
      · exact filled.2 empty
    · obtain ⟨equating, rfl, rfl⟩ := texts (leaf_operand.mp found)
      exact ⟨operator, equating, rfl⟩
    · cases same
      have refused := whole needs
      exact List.forall_mem_cons.mpr ⟨refused.1, List.forall_mem_singleton.mpr refused.2⟩

theorem fits_binary {operator : Operator} {left right : Expr} {leftType rightType : OperandType}
    (first : left.Described leftType) (second : right.Described rightType) :
    (binary operator left right).Fits ↔ Typing.Accepts operator leftType rightType := by
  rw [fits_parts, Typing.accepts_parts]
  simp only [Ne, first.void, second.void, first.string, second.string, first.float, second.float]

theorem typed_exact {tree : Expr} (fits : tree.WellFormed) :
    (∃ type, tree.infer = .ok type) ↔ ∀ node ∈ tree.subtrees, node.Fits := by
  induction tree with
  | leaf type => simp [infer, subtrees, fits_leaf]
  | unary operator operand ih =>
    obtain rfl := Operator.arity_one.mp fits.1
    rw [subtrees, List.forall_mem_cons, ← ih fits.2]
    constructor
    · rintro ⟨type, typed⟩
      obtain ⟨inner, typedInner, applied⟩ := infer_unary_exact.mp typed
      have accepted := (Typing.unary_not.mp applied).2
      exact ⟨(fits_not (described fits.2 typedInner)).mpr accepted, inner, typedInner⟩
    · rintro ⟨own, inner, typedInner⟩
      have accepted := (fits_not (described fits.2 typedInner)).mp own
      exact ⟨.int, infer_unary_exact.mpr ⟨inner, typedInner, Typing.unary_not.mpr ⟨rfl, accepted⟩⟩⟩
  | binary operator left right ihl ihr =>
    rw [subtrees, List.forall_mem_cons, List.forall_mem_append, ← ihl fits.2.1, ← ihr fits.2.2]
    constructor
    · rintro ⟨type, typed⟩
      obtain ⟨leftType, rightType, typedLeft, typedRight, applied⟩ := infer_binary_exact.mp typed
      have accepted := (Typing.binary_accepts fits.1 leftType rightType).mp ⟨type, applied⟩
      have first := described fits.2.1 typedLeft
      have second := described fits.2.2 typedRight
      exact ⟨(fits_binary first second).mpr accepted, ⟨leftType, typedLeft⟩, rightType, typedRight⟩
    · rintro ⟨own, ⟨leftType, typedLeft⟩, rightType, typedRight⟩
      have first := described fits.2.1 typedLeft
      have second := described fits.2.2 typedRight
      have accepted := (fits_binary first second).mp own
      obtain ⟨type, applied⟩ := (Typing.binary_accepts fits.1 leftType rightType).mpr accepted
      exact ⟨type, infer_binary_exact.mpr ⟨leftType, rightType, typedLeft, typedRight, applied⟩⟩

theorem infer_shape {tree : Expr} (fits : tree.WellFormed) (inner : tree.operators ≠ []) :
    ((∃ type, tree.infer = .ok type) ↔ tree.Sound) ∧
    ∀ type, tree.infer = .ok type →
      (type = .float ↔ tree.FloatValued) ∧ (type = .strongInt ↔ tree.Strong) ∧
      (type ≠ .float → type ≠ .strongInt → type = .int) := by
  refine ⟨?_, fun type typed => ?_⟩
  · rw [sound_exact inner]
    exact typed_exact fits
  · have described := described fits typed
    refine ⟨described.float, described.strong, fun float strong => ?_⟩
    cases type with
    | void => exact absurd (congrArg operators (described.void.mp rfl)) inner
    | string => exact absurd (congrArg operators (described.string.mp rfl)) inner
    | float => exact absurd rfl float
    | strongInt => exact absurd rfl strong
    | int => rfl

theorem infer_shape_remainder :
    (Expr.binary .lt (.binary .mod (.leaf .strongInt) (.leaf .int))
      (.binary .mul (.leaf .int) (.leaf .float))).WellFormed ∧
    (Expr.binary .lt (.binary .mod (.leaf .strongInt) (.leaf .int))
      (.binary .mul (.leaf .int) (.leaf .float))).operators ≠ [] ∧
    (Expr.binary .lt (.binary .mod (.leaf .strongInt) (.leaf .int))
      (.binary .mul (.leaf .int) (.leaf .float))).Sound := by
  have fits : (Expr.binary .lt (.binary .mod (.leaf .strongInt) (.leaf .int))
      (.binary .mul (.leaf .int) (.leaf .float))).WellFormed :=
    ⟨rfl, ⟨rfl, trivial, trivial⟩, rfl, trivial, trivial⟩
  have inner : (Expr.binary .lt (.binary .mod (.leaf .strongInt) (.leaf .int))
      (.binary .mul (.leaf .int) (.leaf .float))).operators ≠ [] := by decide
  exact ⟨fits, inner, (infer_shape fits inner).1.mp ⟨.int, rfl⟩⟩

end Expr
end MethodFrame
