import Mathlib.Data.List.Forall2
import MethodFrame.Proofs.OperandStack.Transition

-- Two stacks under the same calls, with related types entry by entry. If typing keeps the relation,
-- accepted calls keep it too. The kind of a refusal depends on no type at all.
namespace MethodFrame

namespace Typing

structure Keeps (R : OperandType → OperandType → Prop) : Prop where
  unary : ∀ {operator operand other type}, R operand other →
    unary operator operand = .ok type → ∃ result, unary operator other = .ok result ∧ R type result
  binary : ∀ {operator left right otherLeft otherRight type}, R left otherLeft →
    R right otherRight → binary operator left right = .ok type →
    ∃ result, binary operator otherLeft otherRight = .ok result ∧ R type result

end Typing

namespace OperandStack
variable {R : OperandType → OperandType → Prop}

inductive Call.Related (R : OperandType → OperandType → Prop) : Call → Call → Prop where
  | push {type other : OperandType} (types : R type other) : Related R (.push type) (.push other)
  | pop : Related R .pop .pop
  | peek : Related R .peek .peek
  | apply (operator : Operator) : Related R (.apply operator) (.apply operator)

theorem Call.Related.symm (symmetric : ∀ {type other}, R type other → R other type)
    {call other : Call} (calls : call.Related R other) : other.Related R call := by
  cases calls with
  | push types => exact .push (symmetric types)
  | pop => exact .pop
  | peek => exact .peek
  | apply operator => exact .apply operator

inductive Answer.Related (R : OperandType → OperandType → Prop) : Answer → Answer → Prop where
  | done : Related R .done .done
  | type {type other : OperandType} (types : R type other) : Related R (.type type) (.type other)
  | top {found other : Option OperandType} (types : Option.Rel R found other) :
      Related R (.top found) (.top other)

inductive Agree (R : OperandType → OperandType → Prop) :
    Except Fault Answer → Except Fault Answer → Prop where
  | accepted {answer other : Answer} (answers : answer.Related R other) :
      Agree R (.ok answer) (.ok other)
  | refused {fault other : Fault} (kinds : fault.label = other.label) :
      Agree R (.error fault) (.error other)

def Accept (R : OperandType → OperandType → Prop) (one other : Except Fault Answer) : Prop :=
  ∃ answer reply, one = .ok answer ∧ other = .ok reply ∧ answer.Related R reply

structure Related (R : OperandType → OperandType → Prop) (left right : OperandStack) : Prop where
  entries : List.Forall₂ R left.entries right.entries
  mark : left.maxDepth = right.maxDepth

theorem split_related {below operands entries : List OperandType}
    (related : List.Forall₂ R (below ++ operands) entries) :
    ∃ lower upper, entries = lower ++ upper ∧ List.Forall₂ R below lower ∧
      List.Forall₂ R operands upper := by
  have lower := List.forall₂_take below.length related
  have upper := List.forall₂_drop below.length related
  rw [List.take_left] at lower
  rw [List.drop_left] at upper
  exact ⟨_, _, (List.take_append_drop below.length entries).symm, lower, upper⟩

theorem resultOf_related (keeps : Typing.Keeps R) {operator : Operator}
    {operands others : List OperandType} (related : List.Forall₂ R operands others)
    {type : OperandType} (typed : resultOf operator operands = .ok type) :
    ∃ result, resultOf operator others = .ok result ∧ R type result := by
  match operands, others, related with
  | [_], [_], .cons only .nil => exact keeps.unary only typed
  | [_, _], [_, _], .cons first (.cons second .nil) => exact keeps.binary first second typed

-- It depends on the number of entries and of operands, and on no type.
def refusal (depth : Nat) : Call → String
  | .push _ => "StackOverflow"
  | .pop | .peek => "StackUnderflow"
  | .apply operator =>
    if depth < operator.arity then "StackUnderflow"
    else match operator.arity with
      | 1 => "UnaryTypeMismatch"
      | 2 => "TypeMismatch"
      | _ => "UnknownOperator"

theorem Step.refusal_label {stack : OperandStack} {call : Call}
    {outcome : Outcome OperandStack Answer} (step : stack.Step call outcome) {fault : Fault}
    (failed : outcome.answer = .error fault) : fault.label = refusal stack.depth call := by
  cases step with
  | overflow full =>
    cases failed
    rfl
  | popEmpty empty =>
    cases failed
    rfl
  | @untyped operator below operands _ parts count refused =>
    cases failed
    have enough := Nat.not_lt.mpr (operands_le_depth parts count)
    rw [refusal, if_neg enough, ← count]
    match operands with
    | [] =>
      cases refused
      rfl
    | [_] =>
      rw [Typing.unary_refused count.symm refused]
      rfl
    | [_, _] =>
      rw [Typing.binary_refused count.symm refused]
      rfl
    | _ :: _ :: _ :: _ =>
      cases refused
      rfl
  | underflow short =>
    cases failed
    rw [refusal, if_pos short]
    rfl
  | pushed room => cases failed
  | popped parts => cases failed
  | peek => cases failed
  | applied parts count typed => cases failed

theorem refusal_related {call other : Call} (calls : call.Related R other) (depth : Nat) :
    refusal depth call = refusal depth other := by
  cases calls <;> rfl

namespace Related
variable {left right : OperandStack}

theorem depth (related : Related R left right) : left.depth = right.depth :=
  related.entries.length_eq

theorem symm (symmetric : ∀ {type other}, R type other → R other type)
    (related : Related R left right) : Related R right left :=
  ⟨(related.entries.imp (fun _ _ types => symmetric types)).flip, related.mark.symm⟩

theorem put (related : Related R left right) {below lower : List OperandType}
    (bases : List.Forall₂ R below lower) {type other : OperandType} (types : R type other) :
    Related R (left.put below type) (right.put lower other) := by
  refine ⟨List.rel_append bases (.cons types .nil), ?_⟩
  simp only [OperandStack.put, related.mark, bases.length_eq]

theorem peek (related : Related R left right) : Option.Rel R left.peek right.peek := by
  have entries := related.entries
  rcases List.eq_nil_or_concat left.entries with empty | ⟨below, type, parts⟩
  · rw [empty, List.forall₂_nil_left_iff] at entries
    rw [OperandStack.peek, OperandStack.peek, empty, entries]
    exact .none
  · rw [List.concat_eq_append] at parts
    rw [parts] at entries
    obtain ⟨lower, upper, same, _, tops⟩ := split_related entries
    match upper, tops with
    | [other], .cons types .nil =>
      rw [OperandStack.peek, OperandStack.peek, parts, same, List.getLast?_concat,
        List.getLast?_concat]
      exact .some types

theorem accepted (keeps : Typing.Keeps R) (related : Related R left right) {call other : Call}
    (calls : call.Related R other) {outcome : Outcome OperandStack Answer}
    (step : left.Step call outcome) {answer : Answer} (given : outcome.answer = .ok answer) :
    ∃ next, right.Step other next ∧
      (∃ reply, next.answer = .ok reply ∧ answer.Related R reply) ∧
      Related R outcome.state next.state := by
  have entries := related.entries
  cases calls with
  | push types =>
    cases step with
    | overflow full => cases given
    | pushed room =>
      cases given
      exact ⟨_, .pushed (related.depth ▸ room), ⟨_, rfl, .done⟩, related.put entries types⟩
  | pop =>
    cases step with
    | popEmpty empty => cases given
    | popped parts =>
      cases given
      rw [parts] at entries
      obtain ⟨lower, upper, same, bases, tops⟩ := split_related entries
      match upper, tops with
      | [other], .cons types .nil =>
        exact ⟨_, .popped same, ⟨_, rfl, .type types⟩, ⟨bases, related.mark⟩⟩
  | peek =>
    cases step with
    | peek =>
      cases given
      exact ⟨_, .peek, ⟨_, rfl, .top related.peek⟩, related⟩
  | apply operator =>
    cases step with
    | untyped parts count refused => cases given
    | underflow short => cases given
    | applied parts count typed =>
      cases given
      rw [parts] at entries
      obtain ⟨lower, upper, same, bases, tops⟩ := split_related entries
      obtain ⟨result, typed, types⟩ := resultOf_related keeps tops typed
      have taken := Step.applied same (tops.length_eq.symm.trans count) typed
      exact ⟨_, taken, ⟨_, rfl, .type types⟩, related.put bases types⟩

theorem step_accepted (keeps : Typing.Keeps R) (related : Related R left right)
    (bounded : left.Bounded) (fits : right.Bounded) {call other : Call}
    (calls : call.Related R other) (given : ∃ answer, (left.perform call).answer = .ok answer) :
    Accept R (left.perform call).answer (right.perform other).answer ∧
      Related R (left.perform call).state (right.perform other).state := by
  obtain ⟨answer, given⟩ := given
  obtain ⟨next, taken, ⟨reply, yielded, answers⟩, states⟩ :=
    related.accepted keeps calls (perform_step bounded call) given
  rw [taken.performed fits]
  exact ⟨⟨answer, reply, given, yielded, answers⟩, states⟩

theorem step (keeps : Typing.Keeps R) (symmetric : ∀ {type other}, R type other → R other type)
    (related : Related R left right) (bounded : left.Bounded) (fits : right.Bounded)
    {call other : Call} (calls : call.Related R other) :
    Agree R (left.perform call).answer (right.perform other).answer ∧
      Related R (left.perform call).state (right.perform other).state := by
  have here := perform_step bounded call
  have there := perform_step fits other
  cases one : (left.perform call).answer with
  | ok answer =>
    obtain ⟨⟨own, reply, same, given, answers⟩, states⟩ :=
      related.step_accepted keeps bounded fits calls ⟨answer, one⟩
    cases one.symm.trans same
    rw [given]
    exact ⟨.accepted answers, states⟩
  | error fault =>
    cases two : (right.perform other).answer with
    | ok reply =>
      obtain ⟨⟨own, answer, same, given, _⟩, _⟩ := (related.symm symmetric).step_accepted keeps fits
        bounded (calls.symm symmetric) ⟨reply, two⟩
      cases one.symm.trans given
    | error twin =>
      have kinds := (here.refusal_label one).trans (refusal_related calls left.depth)
      rw [related.depth, ← there.refusal_label two] at kinds
      rw [(here.refused one).1, (there.refused two).1]
      exact ⟨.refused kinds, related⟩

-- Answers that match at every call match along the runs.
theorem lockstep (Fine : Except Fault Answer → Prop)
    (Match : Except Fault Answer → Except Fault Answer → Prop)
    (steps : ∀ {left right : OperandStack} {call other : Call}, Related R left right →
      left.Bounded → right.Bounded → call.Related R other → Fine (left.perform call).answer →
      Match (left.perform call).answer (right.perform other).answer ∧
        Related R (left.perform call).state (right.perform other).state)
    {first second : List Call} (calls : List.Forall₂ (Call.Related R) first second)
    {left right : OperandStack} (related : Related R left right) (bounded : left.Bounded)
    (fits : right.Bounded) (fine : ∀ record ∈ Run.records perform left first, Fine record.answer) :
    List.Forall₂ (fun one other => Match one.answer other.answer)
        (Run.records perform left first) (Run.records perform right second) ∧
      ∀ place, Related R (Run.finish perform left (first.take place))
        (Run.finish perform right (second.take place)) := by
  induction calls generalizing left right with
  | nil => exact ⟨.nil, fun place => by simpa [Run.finish] using related⟩
  | @cons call other first second same rest ih =>
    obtain ⟨now, others⟩ := List.forall_mem_cons.mp fine
    obtain ⟨answers, states⟩ := steps related bounded fits same now
    obtain ⟨later, marks⟩ :=
      ih states (left.perform_bounded call bounded) (right.perform_bounded other fits) others
    refine ⟨.cons answers later, fun place => ?_⟩
    cases place with
    | zero => exact related
    | succ place => exact marks place

theorem run (keeps : Typing.Keeps R) (symmetric : ∀ {type other}, R type other → R other type)
    {first second : List Call} (calls : List.Forall₂ (Call.Related R) first second)
    {left right : OperandStack} (related : Related R left right) (bounded : left.Bounded)
    (fits : right.Bounded) :
    List.Forall₂ (fun one other => Agree R one.answer other.answer)
        (Run.records perform left first) (Run.records perform right second) ∧
      ∀ place, Related R (Run.finish perform left (first.take place))
        (Run.finish perform right (second.take place)) := by
  refine lockstep (fun _ => True) (Agree R) ?_ calls related bounded fits (fun _ _ => trivial)
  intro left right call other related bounded fits calls _
  exact related.step keeps symmetric bounded fits calls

theorem run_accepted (keeps : Typing.Keeps R) {first second : List Call}
    (calls : List.Forall₂ (Call.Related R) first second) {left right : OperandStack}
    (related : Related R left right) (bounded : left.Bounded) (fits : right.Bounded)
    (accepted : ∀ record ∈ Run.records perform left first, ∃ answer, record.answer = .ok answer) :
    List.Forall₂ (fun one other => Accept R one.answer other.answer)
        (Run.records perform left first) (Run.records perform right second) ∧
      ∀ place, Related R (Run.finish perform left (first.take place))
        (Run.finish perform right (second.take place)) := by
  refine lockstep (fun given => ∃ answer, given = .ok answer) (Accept R) ?_ calls related bounded
    fits accepted
  intro left right call other related bounded fits calls given
  exact related.step_accepted keeps bounded fits calls given

end Related
end OperandStack
end MethodFrame
