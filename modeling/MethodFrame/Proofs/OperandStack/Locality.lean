import Mathlib.Data.List.Basic
import MethodFrame.Proofs.OperandStack.Transition

-- Calls that get by with the entries of their own stack never get to the entries below it: with any
-- others underneath they give the same answers, refusals included, as long as the room suffices.
namespace MethodFrame.OperandStack

def deepest (stack : OperandStack) : List Call → Nat
  | [] => stack.depth
  | call :: rest => max stack.depth ((stack.perform call).state.deepest rest)

theorem depth_le_deepest (stack : OperandStack) (calls : List Call) :
    stack.depth ≤ stack.deepest calls := by
  cases calls with
  | nil => exact Nat.le_refl _
  | cons call rest => exact Nat.le_max_left _ _

-- What the largest depths were does not matter.
def Covers (hidden : List OperandType) (stack deeper : OperandStack) : Prop :=
  deeper.entries = hidden ++ stack.entries

namespace Covers
variable {hidden : List OperandType} {stack deeper : OperandStack}

theorem depth (covers : Covers hidden stack deeper) :
    deeper.depth = hidden.length + stack.depth := by
  rw [OperandStack.depth, covers, List.length_append]
  rfl

theorem parts (covers : Covers hidden stack deeper) {below operands : List OperandType}
    (parts : stack.entries = below ++ operands) :
    deeper.entries = (hidden ++ below) ++ operands := by
  rw [covers, parts, List.append_assoc]

theorem put (hidden below : List OperandType) (stack deeper : OperandStack) (type : OperandType) :
    Covers hidden (stack.put below type) (deeper.put (hidden ++ below) type) :=
  List.append_assoc hidden below [type]

-- Every rule but the two underflows applies to the deeper stack just as well. What is full stays
-- full with more entries in it, and for a push there is `room`.
theorem step (covers : Covers hidden stack deeper) {call : Call}
    {outcome : Outcome OperandStack Answer} (step : stack.Step call outcome)
    (room : hidden.length + outcome.state.depth ≤ frameLimit) (apart : call ≠ .peek)
    (own : outcome.answer ≠ .error .stackUnderflow) :
    ∃ other, deeper.Step call other ∧ other.answer = outcome.answer ∧
      Covers hidden outcome.state other.state := by
  cases step with
  | @pushed type free =>
    change hidden.length + (stack.put stack.entries type).depth ≤ frameLimit at room
    rw [depth_put] at room
    have below : deeper.depth < frameLimit := by
      rw [covers.depth]
      exact room
    refine ⟨_, .pushed below, rfl, ?_⟩
    change Covers hidden (stack.put stack.entries type) (deeper.put deeper.entries type)
    rw [covers]
    exact put hidden stack.entries stack deeper type
  | overflow full =>
    have beyond : frameLimit ≤ deeper.depth := by
      rw [covers.depth]
      exact Nat.le_add_left_of_le full
    exact ⟨_, .overflow beyond, rfl, covers⟩
  | popped parts => exact ⟨_, .popped (covers.parts parts), rfl, rfl⟩
  | popEmpty empty => exact absurd rfl own
  | peek => exact absurd rfl apart
  | applied parts count typed =>
    exact ⟨_, .applied (covers.parts parts) count typed, rfl, put hidden _ stack deeper _⟩
  | untyped parts count refused =>
    exact ⟨_, .untyped (covers.parts parts) count refused, rfl, covers⟩
  | underflow short => exact absurd rfl own

theorem run (covers : Covers hidden stack deeper) {calls : List Call} (steps : .peek ∉ calls)
    (room : hidden.length + stack.deepest calls ≤ frameLimit)
    (own : ∀ record ∈ Run.records perform stack calls, record.answer ≠ .error .stackUnderflow) :
    Run.records perform deeper calls = Run.records perform stack calls ∧
      ∀ earlier, earlier <+: calls →
        Covers hidden (Run.finish perform stack earlier) (Run.finish perform deeper earlier) := by
  induction calls generalizing stack deeper with
  | nil =>
    refine ⟨rfl, fun earlier early => ?_⟩
    rw [List.prefix_nil.mp early]
    exact covers
  | cons call rest ih =>
    rw [List.mem_cons, not_or] at steps
    obtain ⟨apart, others⟩ := steps
    obtain ⟨first, later⟩ := List.forall_mem_cons.mp own
    rw [deepest, ← Nat.add_max_add_left, Nat.max_le] at room
    obtain ⟨here, behind⟩ := room
    have bounded : stack.Bounded := Nat.le_trans (Nat.le_add_left _ _) here
    have fits : deeper.Bounded := Nat.le_trans (Nat.le_of_eq covers.depth) here
    have next := Nat.le_trans
      (Nat.add_le_add_left (depth_le_deepest (stack.perform call).state rest) _) behind
    obtain ⟨other, taken, answers, states⟩ :=
      covers.step (perform_step bounded call) next (Ne.symm apart) first
    rw [← taken.performed fits] at answers states
    obtain ⟨same, kept⟩ := ih states others behind later
    refine ⟨?_, fun earlier early => ?_⟩
    · rw [Run.records, Run.records, answers, same]
    · cases earlier with
      | nil => exact covers
      | cons head tail =>
        obtain ⟨rfl, shorter⟩ := List.cons_prefix_cons.mp early
        exact kept tail shorter

end Covers

theorem run_local (hidden : List OperandType) {stack deeper : OperandStack}
    (covers : deeper.entries = hidden ++ stack.entries) {calls : List Call}
    (steps : .peek ∉ calls) (room : hidden.length + stack.deepest calls ≤ frameLimit)
    (own : ∀ record ∈ Run.records perform stack calls, record.answer ≠ .error .stackUnderflow) :
    Run.records perform deeper calls = Run.records perform stack calls ∧
      (Run.finish perform deeper calls).entries =
        hidden ++ (Run.finish perform stack calls).entries ∧
      ∀ earlier, earlier <+: calls → (Run.finish perform deeper earlier).entries =
        hidden ++ (Run.finish perform stack earlier).entries := by
  obtain ⟨same, kept⟩ := Covers.run covers steps room own
  exact ⟨same, kept calls (List.prefix_refl calls), kept⟩

-- A stack filled to its last entry by the hidden ones still answers a mistyped sum and the rest.
theorem run_local_limit :
    Call.peek ∉ [Call.push .string, .apply .add, .pop, .apply .not] ∧
    (List.replicate 13 OperandType.void).length +
      deepest ⟨[.int], 1⟩ [.push .string, .apply .add, .pop, .apply .not] = frameLimit ∧
    (∀ record ∈ Run.records perform ⟨[.int], 1⟩ [.push .string, .apply .add, .pop, .apply .not],
      record.answer ≠ .error .stackUnderflow) ∧
    Run.records perform ⟨List.replicate 13 .void ++ [.int], 14⟩
        [.push .string, .apply .add, .pop, .apply .not] =
      Run.records perform ⟨[.int], 1⟩ [.push .string, .apply .add, .pop, .apply .not] := by
  have steps : Call.peek ∉ [Call.push .string, .apply .add, .pop, .apply .not] := by decide
  have room : (List.replicate 13 OperandType.void).length +
      deepest ⟨[.int], 1⟩ [.push .string, .apply .add, .pop, .apply .not] = frameLimit := rfl
  have own : ∀ record ∈
      Run.records perform ⟨[.int], 1⟩ [.push .string, .apply .add, .pop, .apply .not],
      record.answer ≠ .error .stackUnderflow := by decide
  exact ⟨steps, room, own, (run_local _ rfl steps (Nat.le_of_eq room) own).1⟩

end MethodFrame.OperandStack
