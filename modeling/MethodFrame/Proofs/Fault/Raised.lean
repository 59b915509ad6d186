import MethodFrame.Proofs.Application.Agreement
import MethodFrame.Proofs.Application.Rejection
import MethodFrame.Proofs.Frame.Refusal
import MethodFrame.Proofs.SlotTable.HighWater

-- The faults that each operation can raise. An internal one is never among them, and no number that
-- is used as an index, as a length or as the place of a cut is out of range.
namespace MethodFrame

namespace Slot

theorem ofNat_taken {index : Nat} {slot : Slot} (made : ofNat? index = some slot) :
    index < frameLimit ∧ slot.index = index ∧ (UInt8.ofNat index).toNat = index := by
  have same := ofNat_exact.mp made
  have below : index < frameLimit := same ▸ slot.bounded
  have byte : index < 2 ^ 8 := Nat.lt_trans below (by decide)
  exact ⟨below, same, UInt8.toNat_ofNat_of_lt' byte⟩

end Slot

namespace Application

inductive Raises (text : String) : Fault → Prop where
  | noOperator : Raises text (.unknownOperator text)
  | noType (name : String) : Raises text (.unknownType name)
  | count {operator : Operator} {actual : Nat} (other : operator.arity ≠ actual) :
      Raises text (.arityMismatch operator operator.arity actual)
  | types (operator : Operator) (left right : OperandType) :
      Raises text (.typeMismatch operator left right)
  | type (operator : Operator) (operand : OperandType) :
      Raises text (.unaryTypeMismatch operator operand)

theorem Raises.external {text : String} {fault : Fault} (raises : Raises text fault) :
    fault.isInternal = false := by
  cases raises <;> rfl

theorem read_raises {text : String} {fault : Fault} (refused : read text = .error fault) :
    Raises text fault := by
  cases read_rejects.mp refused with
  | noOperator plain => exact .noOperator
  | left divided some unnamed => exact .noType _
  | right divided named unnamed => exact .noType _

theorem phrase_count {application : Application} {parts : List String}
    (phrase : Phrase application parts) :
    application.operands.length = 1 ∨ application.operands.length = 2 := by
  cases phrase with
  | before present => exact .inl rfl
  | between present => exact .inr rfl

theorem typeOf_raises {application : Application} {parts : List String} {text : String}
    {fault : Fault} (phrase : Phrase application parts)
    (refused : application.typeOf = .error fault) : Raises text fault := by
  by_cases count : application.operands.length = application.operator.arity
  · cases phrase with
    | before present =>
      rw [Typing.unary_refused count.symm refused]
      exact .type _ _
    | between present =>
      rw [Typing.binary_refused count.symm refused]
      exact .types _ _ _
  · rw [typeOf_mismatch phrase count] at refused
    cases refused
    exact .count (Ne.symm count)

theorem check_raises {text : String} {fault : Fault} (refused : check text = .error fault) :
    Raises text fault := by
  cases accepted : read text with
  | error cause =>
    rw [check, accepted] at refused
    cases refused
    exact read_raises accepted
  | ok application =>
    rw [check_read accepted] at refused
    exact typeOf_raises (phrase_read accepted) refused

end Application

namespace SlotTable

inductive Raises : Call → Fault → Prop where
  | redeclared (name : String) (type : OperandType) :
      Raises (.declare name type) (.redeclared name)
  | declareFull (name : String) (type : OperandType) :
      Raises (.declare name type) (.localsExhausted frameLimit)
  | temporaryFull (type : OperandType) :
      Raises (.temporary type) (.localsExhausted frameLimit)
  | notInUse (slot : Slot) : Raises (.release slot) (.slotNotInUse slot.index)

theorem Raises.external {call : Call} {fault : Fault} (raises : Raises call fault) :
    fault.isInternal = false := by
  cases raises <;> rfl

theorem Step.raises {table : SlotTable} {call : Call} {outcome : Outcome SlotTable Answer}
    (step : table.Step call outcome) {fault : Fault} (failed : outcome.answer = .error fault) :
    Raises call fault := by
  cases step with
  | redeclared known =>
    cases failed
    exact .redeclared _ _
  | declareFull fresh full =>
    cases failed
    exact .declareFull _ _
  | temporaryFull full =>
    cases failed
    exact .temporaryFull _
  | notInUse free =>
    cases failed
    exact .notInUse _
  | _ => cases failed

-- The numbers that a table works with: the search only finds numbers of slots, the number of a slot
-- is that of a place in the array, and a name leads to the place where its local is.
structure InRange (table : SlotTable) : Prop where
  search : ∀ index, table.slots.toList.findIdx? Option.isNone = some index →
    ∃ slot, Slot.ofNat? index = some slot
  cell : ∀ slot : Slot, table.slots.toList[slot.index]? = some (table.entry slot)
  named : ∀ name slot, table.names.find? name = some slot →
    ∃ type, table.slots.toList[slot.index]? = some (some ⟨some name, type⟩)

theorem Coherent.inRange {table : SlotTable} (coherent : table.Coherent) : table.InRange := by
  refine ⟨fun index found => ?_, table.slots_entry, fun name slot leads => ?_⟩
  · obtain ⟨below, _⟩ := List.findIdx?_eq_some_iff_findIdx_eq.mp found
    rw [slots_length] at below
    exact ⟨⟨index, below⟩, Slot.ofNat_exact.mpr rfl⟩
  · obtain ⟨type, held⟩ := (coherent.named name slot).mp leads
    exact ⟨type, held ▸ table.slots_entry slot⟩

end SlotTable

namespace OperandStack

inductive Raises : Call → Fault → Prop where
  | overflow (type : OperandType) : Raises (.push type) (.stackOverflow frameLimit)
  | popEmpty : Raises .pop .stackUnderflow
  | underflow (operator : Operator) : Raises (.apply operator) .stackUnderflow
  | absent : Raises (.apply .none) (.unknownOperator "none")
  | type {operator : Operator} (one : operator.arity = 1) (operand : OperandType) :
      Raises (.apply operator) (.unaryTypeMismatch operator operand)
  | types {operator : Operator} (two : operator.arity = 2) (left right : OperandType) :
      Raises (.apply operator) (.typeMismatch operator left right)

theorem Raises.external {call : Call} {fault : Fault} (raises : Raises call fault) :
    fault.isInternal = false := by
  cases raises <;> rfl

theorem Step.raises {stack : OperandStack} {call : Call} {outcome : Outcome OperandStack Answer}
    (step : stack.Step call outcome) {fault : Fault} (failed : outcome.answer = .error fault) :
    Raises call fault := by
  cases step with
  | overflow full =>
    cases failed
    exact .overflow _
  | popEmpty empty =>
    cases failed
    exact .popEmpty
  | @untyped operator below operands _ parts count refused =>
    cases failed
    by_cases absent : operator = .none
    · subst absent
      rw [List.length_eq_zero_iff.mp count] at refused
      cases refused
      exact .absent
    · rcases operands_cases absent count with ⟨operand, rfl⟩ | ⟨left, right, rfl⟩
      · rw [Typing.unary_refused count.symm refused]
        exact .type count.symm operand
      · rw [Typing.binary_refused count.symm refused]
        exact .types count.symm left right
  | underflow short =>
    cases failed
    exact .underflow _
  | _ => cases failed

-- Where an operator cuts the stack. Without enough entries it does not get there; else the cut lies
-- within the stack, its operands are what is behind, and nothing but their typing can refuse it.
structure Sliced (stack : OperandStack) (operator : Operator) : Prop where
  short : stack.depth < operator.arity → stack.apply operator = .refuse stack .stackUnderflow
  cut : operator.arity ≤ stack.depth →
    stack.depth - operator.arity + operator.arity = stack.depth ∧
      (stack.entries.take (stack.depth - operator.arity)).length = stack.depth - operator.arity ∧
      (stack.entries.drop (stack.depth - operator.arity)).length = operator.arity
  answer : operator.arity ≤ stack.depth → (stack.apply operator).answer =
    resultOf operator (stack.entries.drop (stack.depth - operator.arity))

theorem Bounded.sliced {stack : OperandStack} (bounded : stack.Bounded) (operator : Operator) :
    stack.Sliced operator := by
  have behind (enough : operator.arity ≤ stack.depth) :
      (stack.entries.drop (stack.depth - operator.arity)).length = operator.arity := by
    rw [List.length_drop]
    exact Nat.sub_sub_self enough
  refine ⟨fun short => ?_, fun enough => ⟨Nat.sub_add_cancel enough, ?_, behind enough⟩,
    fun enough => ?_⟩
  · rw [apply, if_pos short]
  · exact List.length_take_of_le (Nat.sub_le _ _)
  · exact apply_answer bounded (List.take_append_drop _ _).symm (behind enough)

end OperandStack

namespace Frame

theorem perform_external {frame : Frame} (bounded : frame.Bounded) {call : Call} {fault : Fault}
    (failed : (frame.perform call).answer = .error fault) : fault.isInternal = false := by
  cases call with
  | locals call =>
    exact ((frame.locals.perform_step call).raises (Outcome.map_error.mp failed)).external
  | stack call =>
    exact ((OperandStack.perform_step bounded call).raises (Outcome.map_error.mp failed)).external

end Frame

theorem Fault.internal_unreached :
    (∀ text,
      (∀ application, Application.read text = .ok application →
        application.operands.length = 1 ∨ application.operands.length = 2) ∧
      ∀ fault, Application.check text = .error fault →
        Application.Raises text fault ∧ fault.isInternal = false) ∧
    (∀ calls call fault, ((Frame.after calls).perform call).answer = .error fault →
      fault.isInternal = false) ∧
    (∀ calls, (∀ call fault, ((SlotTable.after calls).perform call).answer = .error fault →
        SlotTable.Raises call fault) ∧
      (SlotTable.after calls).InRange) ∧
    (∀ index slot, Slot.ofNat? index = some slot →
      index < frameLimit ∧ slot.index = index ∧ (UInt8.ofNat index).toNat = index) ∧
    (∀ index, frameLimit ≤ index → Slot.ofNat? index = none) ∧
    ∀ calls, (∀ call fault, ((OperandStack.after calls).perform call).answer = .error fault →
        OperandStack.Raises call fault) ∧
      ∀ operator, (OperandStack.after calls).Sliced operator := by
  refine ⟨fun text => ⟨fun application accepted => ?_, fun fault refused => ?_⟩,
    fun calls call fault failed => ?_, fun calls => ⟨fun call fault failed => ?_, ?_⟩,
    fun index slot made => Slot.ofNat_taken made, fun index beyond => Slot.ofNat_none.mpr beyond,
    fun calls => ⟨fun call fault failed => ?_, fun operator => ?_⟩⟩
  · exact Application.phrase_count (Application.phrase_read accepted)
  · have raises := Application.check_raises refused
    exact ⟨raises, raises.external⟩
  · exact Frame.perform_external (Frame.after_bounded calls) failed
  · exact ((SlotTable.after calls).perform_step call).raises failed
  · exact (SlotTable.after_coherent calls).inRange
  · exact (OperandStack.perform_step (OperandStack.after_bounded calls) call).raises failed
  · exact (OperandStack.after_bounded calls).sliced operator

end MethodFrame
