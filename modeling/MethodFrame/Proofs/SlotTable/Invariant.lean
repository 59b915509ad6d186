import MethodFrame.Proofs.SlotTable.Transition

-- What every call keeps: the index knows exactly the named locals in the slots, and all of the
-- slots in use lie below the high-water mark, which their number never passes.
namespace MethodFrame.SlotTable

structure Coherent (table : SlotTable) : Prop where
  named : ∀ name slot, table.names.find? name = some slot ↔
    ∃ type, table.entry slot = some ⟨some name, type⟩
  below : ∀ slot, ¬table.Free slot → slot.index < table.highWater
  within : table.size ≤ table.highWater
  bounded : table.highWater ≤ frameLimit

theorem entry_empty (slot : Slot) : empty.entry slot = none := by
  change (Vector.replicate frameLimit none).get ⟨slot.index, slot.bounded⟩ = none
  exact Vector.getElem_replicate slot.bounded

theorem size_empty : empty.size = 0 := by
  decide

theorem coherent_empty : Coherent empty := by
  refine ⟨fun name slot => ?_, fun slot used => absurd (entry_empty slot) used, ?_, Nat.zero_le _⟩
  · have unknown : empty.names.find? name = none := NameIndex.find_empty name
    simp [unknown, entry_empty]
  · rw [size_empty]
    exact Nat.zero_le _

theorem find_none_of_fresh {table : SlotTable} {name : String}
    (fresh : table.names.contains name = false) : table.names.find? name = none := by
  rw [NameIndex.contains, Option.isSome_eq_false_iff] at fresh
  exact Option.isNone_iff_eq_none.mp fresh

namespace Coherent
variable {table : SlotTable} {slot : Slot}

-- The lowest free slot either fills a hole below the mark, and then the number of
-- slots in use stays below the mark too, or there is no hole and it is the mark itself.
theorem highWater_lowest (coherent : table.Coherent) (lowest : table.LowestFree slot)
    (entry : Local) :
    (table.place slot entry).highWater = max table.highWater (slot.index + 1) := by
  have most := lowest.le_size
  have within := coherent.within
  rw [highWater_place lowest.1]
  by_cases hole : slot.index < table.highWater
  · have filled : (table.place slot entry).size ≤ table.highWater := by
      refine size_le_of_below (fun other used => ?_)
      rw [Free, entry_place] at used
      split at used
      · rename_i same
        rw [same]
        exact hole
      · exact coherent.below other used
    rw [size_place lowest.1] at filled
    omega
  · omega

theorem named_place (coherent : table.Coherent) (free : table.Free slot) {entry : Local}
    (fresh : ∀ name, entry.name = some name → table.names.find? name = none)
    (name : String) (other : Slot) : (table.place slot entry).names.find? name = some other ↔
      ∃ type, (table.place slot entry).entry other = some ⟨some name, type⟩ := by
  rw [find_place, entry_place]
  by_cases here : entry.name = some name
  · rw [if_pos here]
    constructor
    · intro same
      cases same
      exact ⟨entry.type, by rw [if_pos rfl, ← here]⟩
    · intro stored
      obtain ⟨type, held⟩ := stored
      split at held
      · rename_i same
        rw [same]
      · have known := (coherent.named name other).mpr ⟨type, held⟩
        rw [fresh name here] at known
        cases known
  · rw [if_neg here, coherent.named]
    by_cases same : other = slot
    · rw [if_pos same, same, free]
      constructor
      · intro stored
        obtain ⟨type, held⟩ := stored
        cases held
      · intro stored
        obtain ⟨type, held⟩ := stored
        cases held
        exact absurd rfl here
    · rw [if_neg same]

theorem place (coherent : table.Coherent) (lowest : table.LowestFree slot) {entry : Local}
    (fresh : ∀ name, entry.name = some name → table.names.find? name = none) :
    (table.place slot entry).Coherent := by
  have mark := coherent.highWater_lowest lowest entry
  refine ⟨coherent.named_place lowest.1 fresh, fun other used => ?_, ?_, ?_⟩
  · rw [Free, entry_place] at used
    rw [mark]
    split at used
    · rename_i same
      rw [same]
      exact Nat.le_max_right _ _
    · exact Nat.lt_of_lt_of_le (coherent.below other used) (Nat.le_max_left _ _)
  · rw [highWater_place lowest.1, size_place lowest.1]
    exact Nat.le_max_right _ _
  · rw [mark]
    exact Nat.max_le.mpr ⟨coherent.bounded, slot.bounded⟩

theorem named_vacate (coherent : table.Coherent) {entry : Local}
    (held : table.entry slot = some entry) (name : String) (other : Slot) :
    (table.vacate slot entry).names.find? name = some other ↔
      ∃ type, (table.vacate slot entry).entry other = some ⟨some name, type⟩ := by
  rw [find_vacate, entry_vacate]
  by_cases here : entry.name = some name
  · have found := (coherent.named name slot).mpr ⟨entry.type, by rw [held, ← here]⟩
    rw [if_pos here]
    constructor
    · intro none_some
      cases none_some
    · intro stored
      obtain ⟨type, kept⟩ := stored
      split at kept
      · cases kept
      · rename_i apart
        have known := (coherent.named name other).mpr ⟨type, kept⟩
        rw [found] at known
        exact absurd (Option.some.inj known).symm apart
  · rw [if_neg here, coherent.named]
    by_cases same : other = slot
    · rw [if_pos same, same, held]
      constructor
      · intro stored
        obtain ⟨type, kept⟩ := stored
        cases kept
        exact absurd rfl here
      · intro stored
        obtain ⟨type, kept⟩ := stored
        cases kept
    · rw [if_neg same]

theorem vacate (coherent : table.Coherent) {entry : Local}
    (held : table.entry slot = some entry) : (table.vacate slot entry).Coherent := by
  refine ⟨coherent.named_vacate held, fun other used => ?_, ?_, coherent.bounded⟩
  · rw [Free, entry_vacate] at used
    split at used
    · exact absurd rfl used
    · exact coherent.below other used
  · have smaller := size_vacate held
    have within := coherent.within
    change (table.vacate slot entry).size ≤ table.highWater
    omega

theorem step (coherent : table.Coherent) {call : Call} {outcome : Outcome SlotTable Answer}
    (step : table.Step call outcome) : outcome.state.Coherent := by
  cases step with
  | declared fresh lowest =>
    refine coherent.place lowest (fun name same => ?_)
    cases same
    exact find_none_of_fresh fresh
  | temporary lowest =>
    refine coherent.place lowest (fun name same => ?_)
    cases same
  | released held => exact coherent.vacate held
  | redeclared known => exact coherent
  | declareFull fresh full => exact coherent
  | temporaryFull full => exact coherent
  | lookup name => exact coherent
  | notInUse free => exact coherent
  | size => exact coherent
  | isEmpty => exact coherent
  | highWater => exact coherent

theorem lookup_exact (coherent : table.Coherent) {name : String} {type : OperandType} :
    table.lookup name = some (slot, type) ↔ table.entry slot = some ⟨some name, type⟩ := by
  constructor
  · intro found
    rw [lookup] at found
    split at found
    · cases found
    · rename_i known leads
      obtain ⟨held, entry, same⟩ := Option.map_eq_some_iff.mp found
      obtain ⟨kept, local_at⟩ := (coherent.named name known).mp leads
      rw [local_at] at entry
      cases entry
      cases same
      exact local_at
  · intro held
    have known := (coherent.named name slot).mpr ⟨type, held⟩
    rw [lookup, known]
    simp [held]

end Coherent
end MethodFrame.SlotTable
