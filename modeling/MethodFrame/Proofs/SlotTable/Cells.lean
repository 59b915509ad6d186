import MethodFrame.SlotTable

-- The slots of a table one by one.
namespace MethodFrame

theorem Slot.eq_of_index {left right : Slot} (same : left.index = right.index) : left = right := by
  cases left
  cases right
  cases same
  rfl

def Slot.all : List Slot :=
  (List.finRange frameLimit).map (fun place => ⟨place.val, place.isLt⟩)

theorem Slot.mem_all (slot : Slot) : slot ∈ Slot.all :=
  List.mem_map.mpr ⟨⟨slot.index, slot.bounded⟩, List.mem_finRange _, rfl⟩

namespace SlotTable

def Free (table : SlotTable) (slot : Slot) : Prop := table.entry slot = none

def Full (table : SlotTable) : Prop := ∀ slot, ¬table.Free slot

def LowestFree (table : SlotTable) (slot : Slot) : Prop :=
  table.Free slot ∧ ∀ lower : Slot, lower.index < slot.index → ¬table.Free lower

theorem slots_length (table : SlotTable) : table.slots.toList.length = frameLimit :=
  table.slots.length_toList

theorem slots_entry (table : SlotTable) (slot : Slot) :
    table.slots.toList[slot.index]? = some (table.entry slot) := by
  have bound : slot.index < table.slots.toList.length := by
    rw [slots_length]
    exact slot.bounded
  rw [List.getElem?_eq_getElem bound, Vector.getElem_toList]
  rfl

theorem entry_of_slots {table : SlotTable} {index : Nat} {entry : Option Local}
    (found : table.slots.toList[index]? = some entry) :
    ∃ slot : Slot, slot.index = index ∧ table.entry slot = entry := by
  have bound : index < frameLimit := by
    rw [← table.slots_length]
    exact (List.getElem?_eq_some_iff.mp found).1
  exact ⟨⟨index, bound⟩, rfl, Option.some.inj ((table.slots_entry ⟨index, bound⟩).symm.trans found)⟩

theorem entry_setSlots (table : SlotTable) (names : NameIndex) (mark : Nat) (slot other : Slot)
    (entry : Option Local) :
    (SlotTable.mk (setSlots table.slots slot entry) names mark).entry other =
      if other = slot then entry else table.entry other := by
  have bound := other.bounded
  change (table.slots.set slot.index entry slot.bounded)[other.index] = _
  rw [Vector.getElem_set]
  by_cases same : other = slot
  · subst same
    simp
  · have apart : slot.index ≠ other.index := fun equal => same (Slot.eq_of_index equal.symm)
    rw [if_neg apart, if_neg same]
    rfl

theorem setSlots_inBounds (slots : Vector (Option Local) frameLimit) (slot : Slot)
    (entry : Option Local) :
    slots.setIfInBounds slot.index entry = setSlots slots slot entry := by
  refine Vector.ext (fun index bound => ?_)
  rw [setSlots, Vector.getElem_setIfInBounds bound, Vector.getElem_set]

theorem setSlots_free {table : SlotTable} {slot : Slot} (free : table.Free slot) :
    setSlots table.slots slot none = table.slots := by
  have held : table.slots.get ⟨slot.index, slot.bounded⟩ = none := free
  rw [setSlots, ← held]
  exact Vector.set_getElem_self slot.bounded

theorem occupied_setSlots (table : SlotTable) (slot : Slot) (entry : Option Local) :
    occupied (setSlots table.slots slot entry) + (table.entry slot).isSome.toNat =
      table.size + entry.isSome.toNat := by
  obtain ⟨bound, held⟩ := List.getElem?_eq_some_iff.mp (table.slots_entry slot)
  have least := List.boole_getElem_le_countP (p := Option.isSome) bound
  rw [size, occupied, occupied, setSlots, Vector.toList_set, List.countP_set bound]
  rw [held] at least ⊢
  generalize table.entry slot = old at least ⊢
  cases old <;> cases entry <;>
    simp only [Option.isSome_some, Option.isSome_none, Bool.toNat_true, Bool.toNat_false,
      Bool.false_eq_true, if_true, if_false] at least ⊢ <;> omega

theorem size_le_of_below {table : SlotTable} {bound : Nat}
    (below : ∀ slot, ¬table.Free slot → slot.index < bound) : table.size ≤ bound := by
  have beyond : (table.slots.toList.drop bound).countP Option.isSome = 0 := by
    rw [List.countP_eq_zero]
    intro entry member used
    obtain ⟨place, found⟩ := List.mem_iff_getElem?.mp member
    rw [List.getElem?_drop] at found
    obtain ⟨slot, placed, held⟩ := entry_of_slots found
    have low := below slot (fun free => by rw [← held, free] at used; cases used)
    omega
  have within : (table.slots.toList.take bound).countP Option.isSome ≤ bound :=
    Nat.le_trans List.countP_le_length (List.length_take_le _ _)
  calc table.size
      = (table.slots.toList.take bound ++ table.slots.toList.drop bound).countP Option.isSome := by
        rw [List.take_append_drop]; rfl
    _ ≤ bound := by rw [List.countP_append, beyond]; exact within

theorem le_size_of_filled {table : SlotTable} {bound : Nat} (fits : bound ≤ frameLimit)
    (filled : ∀ slot : Slot, slot.index < bound → ¬table.Free slot) : bound ≤ table.size := by
  have all : (table.slots.toList.take bound).countP Option.isSome =
      (table.slots.toList.take bound).length := by
    rw [List.countP_eq_length]
    intro entry member
    obtain ⟨place, found⟩ := List.mem_iff_getElem?.mp member
    rw [List.getElem?_take] at found
    split at found
    · obtain ⟨slot, placed, held⟩ := entry_of_slots found
      have used := filled slot (by omega)
      rw [Free, held] at used
      exact Option.isSome_iff_ne_none.mpr used
    · cases found
  rw [List.length_take, slots_length, Nat.min_eq_left fits] at all
  calc bound = (table.slots.toList.take bound).countP Option.isSome := all.symm
    _ ≤ (table.slots.toList.take bound ++ table.slots.toList.drop bound).countP Option.isSome := by
        rw [List.countP_append]; exact Nat.le_add_right _ _
    _ = table.size := by rw [List.take_append_drop]; rfl

theorem size_le (table : SlotTable) : table.size ≤ frameLimit :=
  size_le_of_below (fun slot _ => slot.bounded)

theorem slots_all (table : SlotTable) : table.slots.toList = Slot.all.map table.entry := by
  have sized : table.slots.toList.length = (Slot.all.map table.entry).length := by
    rw [slots_length, List.length_map, Slot.all, List.length_map, List.length_finRange]
  refine List.ext_getElem sized (fun index bound _ => ?_)
  simp only [Slot.all, List.getElem_map, List.getElem_finRange, Vector.getElem_toList]
  rfl

theorem size_congr {left right : SlotTable} (same : ∀ slot, left.Free slot ↔ right.Free slot) :
    left.size = right.size := by
  rw [size, size, occupied, occupied, slots_all, slots_all, List.countP_map, List.countP_map]
  refine List.countP_congr (fun slot _ => ?_)
  rw [Function.comp_apply, Function.comp_apply, Option.isSome_iff_ne_none,
    Option.isSome_iff_ne_none]
  exact not_congr (same slot)

theorem LowestFree.le_size {table : SlotTable} {slot : Slot} (lowest : table.LowestFree slot) :
    slot.index ≤ table.size :=
  le_size_of_filled (Nat.le_of_lt slot.bounded) lowest.2

theorem search_full {table : SlotTable} :
    table.slots.toList.findIdx? Option.isNone = none ↔ table.Full := by
  rw [List.findIdx?_eq_none_iff]
  constructor
  · intro used slot free
    have member := List.mem_iff_getElem?.mpr ⟨_, table.slots_entry slot⟩
    rw [free] at member
    cases used none member
  · intro full entry member
    obtain ⟨place, found⟩ := List.mem_iff_getElem?.mp member
    obtain ⟨slot, _, held⟩ := entry_of_slots found
    cases entry with
    | none => exact absurd held (full slot)
    | some held => rfl

theorem search_lowest {table : SlotTable} {slot : Slot} :
    table.slots.toList.findIdx? Option.isNone = some slot.index ↔ table.LowestFree slot := by
  have seen := fun other : Slot => (List.getElem?_eq_some_iff.mp (table.slots_entry other)).2
  rw [List.findIdx?_eq_some_iff_getElem]
  constructor
  · intro found
    obtain ⟨bound, free, first⟩ := found
    refine ⟨?_, fun lower below used => ?_⟩
    · rw [seen] at free
      exact Option.isNone_iff_eq_none.mp free
    · have taken := first lower.index below
      rw [seen, used] at taken
      exact taken rfl
  · intro lowest
    obtain ⟨free, first⟩ := lowest
    refine ⟨by rw [slots_length]; exact slot.bounded, ?_, fun index below => ?_⟩
    · rw [seen, free]; rfl
    · have used := first ⟨index, Nat.lt_trans below slot.bounded⟩ below
      rw [seen ⟨index, Nat.lt_trans below slot.bounded⟩]
      exact fun empty => used (Option.isNone_iff_eq_none.mp empty)

theorem full_or_lowest (table : SlotTable) : table.Full ∨ ∃ slot, table.LowestFree slot := by
  cases search : table.slots.toList.findIdx? Option.isNone with
  | none => exact .inl (search_full.mp search)
  | some index =>
    obtain ⟨bound, _⟩ := List.findIdx?_eq_some_iff_findIdx_eq.mp search
    rw [slots_length] at bound
    have lowest : table.LowestFree ⟨index, bound⟩ := search_lowest.mp search
    exact .inr ⟨_, lowest⟩

theorem full_exact {table : SlotTable} : table.Full ↔ table.size = frameLimit := by
  constructor
  · intro full
    exact Nat.le_antisymm table.size_le
      (le_size_of_filled (Nat.le_refl _) (fun slot _ => full slot))
  · intro counted slot free
    have every : table.slots.toList.countP Option.isSome = table.slots.toList.length := by
      rw [slots_length]
      exact counted
    have member := List.mem_iff_getElem?.mpr ⟨_, table.slots_entry slot⟩
    have used := List.countP_eq_length.mp every _ member
    rw [free] at used
    cases used

end SlotTable
end MethodFrame
