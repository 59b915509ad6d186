import MethodFrame.Proofs.SlotTable.Naming

-- What calls can tell about a table: which slots are in use, what every name leads to, and the
-- high-water mark. Two tables that agree in these three answer every further call alike.
namespace MethodFrame

-- What can be seen of a slot. A local is seen with its name and type; of a
-- temporary it is only seen that it is there, for no call asks for its type.
inductive Sight where
  | free
  | temporary
  | named (name : String) (type : OperandType)
deriving DecidableEq

namespace Sight

def of : Option Local → Sight
  | none => .free
  | some ⟨none, _⟩ => .temporary
  | some ⟨some name, type⟩ => .named name type

theorem of_free {entry : Option Local} : of entry = .free ↔ entry = none := by
  rcases entry with _ | ⟨_ | name, type⟩ <;> simp [of]

theorem of_named {entry : Option Local} {name : String} {type : OperandType} :
    of entry = .named name type ↔ entry = some ⟨some name, type⟩ := by
  rcases entry with _ | ⟨_ | given, held⟩ <;> simp [of]

theorem eq_of_parts {left right : Sight} (free : left = .free ↔ right = .free)
    (named : ∀ name type, left = .named name type ↔ right = .named name type) : left = right := by
  cases left with
  | free => exact (free.mp rfl).symm
  | named name type => exact ((named name type).mp rfl).symm
  | temporary =>
    cases right with
    | free => exact free.mpr rfl
    | temporary => rfl
    | named name type => exact (named name type).mpr rfl

end Sight

namespace SlotTable

def sight (table : SlotTable) (slot : Slot) : Sight := .of (table.entry slot)

theorem sight_place {table : SlotTable} {slot : Slot} {entry : Local} (other : Slot) :
    (table.place slot entry).sight other =
      if other = slot then .of (some entry) else table.sight other := by
  rw [sight, entry_place, apply_ite Sight.of]
  rfl

theorem sight_vacate {table : SlotTable} {slot : Slot} {entry : Local} (other : Slot) :
    (table.vacate slot entry).sight other = if other = slot then .free else table.sight other := by
  rw [sight, entry_vacate, apply_ite Sight.of]
  rfl

structure Alike (left right : SlotTable) : Prop where
  free : ∀ slot, left.Free slot ↔ right.Free slot
  lookup : ∀ name, left.lookup name = right.lookup name
  mark : left.highWater = right.highWater

-- For coherent tables, to be alike is to look the same in every slot, because the
-- named locals are found through the slots.
theorem alike_exact {left right : SlotTable} (coherent : left.Coherent)
    (alongside : right.Coherent) : Alike left right ↔
      (∀ slot, left.sight slot = right.sight slot) ∧ left.highWater = right.highWater := by
  constructor
  · intro alike
    refine ⟨fun slot => Sight.eq_of_parts ?_ (fun name type => ?_), alike.mark⟩
    · rw [sight, sight, Sight.of_free, Sight.of_free]
      exact alike.free slot
    · rw [sight, sight, Sight.of_named, Sight.of_named, ← coherent.lookup_exact,
        ← alongside.lookup_exact, alike.lookup]
  · intro same
    obtain ⟨seen, mark⟩ := same
    have both : ∀ slot, Sight.of (left.entry slot) = Sight.of (right.entry slot) := seen
    refine ⟨fun slot => ?_, fun name => Option.ext (fun found => ?_), mark⟩
    · rw [Free, Free, ← Sight.of_free, ← Sight.of_free, both]
    · rw [coherent.lookup_exact, alongside.lookup_exact, ← Sight.of_named, ← Sight.of_named, both]

structure Twins (left right : SlotTable) : Prop where
  coherent : left.Coherent
  alongside : right.Coherent
  alike : Alike left right

namespace Twins
variable {left right : SlotTable} {slot : Slot}

theorem contains (twins : Twins left right) (name : String) :
    right.names.contains name = left.names.contains name := by
  rw [twins.alongside.contains_lookup, twins.coherent.contains_lookup, twins.alike.lookup]

theorem lowest (twins : Twins left right) (lowest : left.LowestFree slot) :
    right.LowestFree slot :=
  ⟨(twins.alike.free slot).mp lowest.1,
    fun lower below free => lowest.2 lower below ((twins.alike.free lower).mpr free)⟩

theorem full (twins : Twins left right) (full : left.Full) : right.Full :=
  fun slot free => full slot ((twins.alike.free slot).mpr free)

theorem size (twins : Twins left right) : right.size = left.size :=
  (size_congr twins.alike.free).symm

theorem place (twins : Twins left right) (free : left.Free slot) {entry : Local}
    (coherent : (left.place slot entry).Coherent) (alongside : (right.place slot entry).Coherent) :
    Twins (left.place slot entry) (right.place slot entry) := by
  obtain ⟨seen, mark⟩ := (alike_exact twins.coherent twins.alongside).mp twins.alike
  refine ⟨coherent, alongside, (alike_exact coherent alongside).mpr ⟨fun other => ?_, ?_⟩⟩
  · rw [sight_place, sight_place, seen]
  · rw [highWater_place free, highWater_place ((twins.alike.free slot).mp free), mark, twins.size]

-- The locals taken out need not be the same ones, as long as they were in the same slot.
theorem vacate (twins : Twins left right) {entry other : Local}
    (coherent : (left.vacate slot entry).Coherent)
    (alongside : (right.vacate slot other).Coherent) :
    Twins (left.vacate slot entry) (right.vacate slot other) := by
  obtain ⟨seen, mark⟩ := (alike_exact twins.coherent twins.alongside).mp twins.alike
  refine ⟨coherent, alongside, (alike_exact coherent alongside).mpr ⟨fun place => ?_, mark⟩⟩
  rw [sight_vacate, sight_vacate, seen]

theorem step (twins : Twins left right) {call : Call} {outcome : Outcome SlotTable Answer}
    (step : left.Step call outcome) : ∃ other, right.Step call other ∧
      other.answer = outcome.answer ∧ Twins outcome.state other.state := by
  have next := twins.coherent.step step
  cases step with
  | @declared name type slot fresh lowest =>
    have taken : right.Step (.declare name type) _ :=
      .declared ((twins.contains name).trans fresh) (twins.lowest lowest)
    exact ⟨_, taken, rfl, twins.place lowest.1 next (twins.alongside.step taken)⟩
  | @temporary type slot lowest =>
    have taken : right.Step (.temporary type) _ := .temporary (twins.lowest lowest)
    exact ⟨_, taken, rfl, twins.place lowest.1 next (twins.alongside.step taken)⟩
  | @released slot entry held =>
    have used : ¬right.Free slot := by
      rw [← twins.alike.free, Free, held]
      exact Option.some_ne_none entry
    obtain ⟨other, kept⟩ := Option.ne_none_iff_exists'.mp used
    have taken := Step.released kept
    exact ⟨_, taken, rfl, twins.vacate next (twins.alongside.step taken)⟩
  | @redeclared name type known =>
    exact ⟨_, .redeclared ((twins.contains name).trans known), rfl, twins⟩
  | @declareFull name type fresh full =>
    exact ⟨_, .declareFull ((twins.contains name).trans fresh) (twins.full full), rfl, twins⟩
  | temporaryFull full => exact ⟨_, .temporaryFull (twins.full full), rfl, twins⟩
  | notInUse free => exact ⟨_, .notInUse ((twins.alike.free _).mp free), rfl, twins⟩
  | lookup name =>
    refine ⟨_, .lookup name, ?_, twins⟩
    rw [Outcome.quiet, Outcome.quiet, twins.alike.lookup]
  | size =>
    refine ⟨_, .size, ?_, twins⟩
    rw [Outcome.quiet, Outcome.quiet, twins.size]
  | isEmpty =>
    refine ⟨_, .isEmpty, ?_, twins⟩
    rw [Outcome.quiet, Outcome.quiet, SlotTable.isEmpty, SlotTable.isEmpty, twins.size]
  | highWater =>
    refine ⟨_, .highWater, ?_, twins⟩
    rw [Outcome.quiet, Outcome.quiet, twins.alike.mark]

theorem records (twins : Twins left right) (calls : List Call) :
    Run.records perform left calls = Run.records perform right calls := by
  induction calls generalizing left right with
  | nil => rfl
  | cons call rest ih =>
    obtain ⟨other, step, same, next⟩ := twins.step (left.perform_step call)
    rw [← step.performed] at same next
    rw [Run.records, Run.records, same, ih next]

end Twins

theorem release_refused {table : SlotTable} {slot : Slot} :
    (table.perform (.release slot)).answer = .error (.slotNotInUse slot.index) ↔
      table.Free slot := by
  constructor
  · intro refused
    cases held : table.entry slot with
    | none => exact held
    | some entry =>
      rw [(Step.released held).performed] at refused
      cases refused
  · intro free
    rw [(Step.notInUse free).performed]
    rfl

theorem alike_of_records {left right : SlotTable}
    (same : ∀ calls, Run.records perform left calls = Run.records perform right calls) :
    Alike left right := by
  have answers : ∀ call, (left.perform call).answer = (right.perform call).answer := by
    intro call
    have one := same [call]
    simp only [Run.records, List.cons.injEq, Record.mk.injEq, true_and, and_true] at one
    exact one
  refine ⟨fun slot => ?_, fun name => ?_, ?_⟩
  · rw [← release_refused, ← release_refused, answers]
  · have found := Except.ok.inj (answers (.lookup name))
    exact Answer.binding.inj found
  · have counted := Except.ok.inj (answers .highWater)
    exact Answer.count.inj counted

theorem indistinguishable_exact (first second : List Call) :
    ((∀ calls, Run.records perform (after first) calls = Run.records perform (after second) calls) ↔
      Alike (after first) (after second)) ∧
    (Alike (after first) (after second) ↔
      (∀ slot, (after first).sight slot = (after second).sight slot) ∧
        (after first).highWater = (after second).highWater) := by
  have coherent := after_coherent first
  have alongside := after_coherent second
  refine ⟨⟨alike_of_records, fun alike calls => ?_⟩, alike_exact coherent alongside⟩
  have twins : Twins (after first) (after second) := ⟨coherent, alongside, alike⟩
  exact twins.records calls

end SlotTable
end MethodFrame
