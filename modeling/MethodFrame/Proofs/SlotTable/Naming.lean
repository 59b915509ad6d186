import MethodFrame.Proofs.SlotTable.HighWater

-- The index of a table that calls have led to says nothing that the slots do not say: it has one
-- entry for each named local and no other, and looking a name up is going through the slots.
namespace MethodFrame

namespace NameIndex

-- No name has two entries. `find?` would never get to the second one.
def Distinct (index : NameIndex) : Prop := index.names.Nodup

theorem Distinct.erase {index : NameIndex} (distinct : index.Distinct) (name : String) :
    (index.erase name).Distinct :=
  List.Nodup.sublist (List.filter_sublist.map Prod.fst) distinct

theorem Distinct.insert {index : NameIndex} (distinct : index.Distinct) (name : String)
    (slot : Slot) : (index.insert name slot).Distinct := by
  have gone : name ∉ (index.erase name).names := by
    simp [names, NameIndex.erase]
  exact List.nodup_cons.mpr ⟨gone, distinct.erase name⟩

theorem mem_entries {index : NameIndex} (distinct : index.Distinct) {name : String} {slot : Slot} :
    (name, slot) ∈ index.entries ↔ index.find? name = some slot := by
  constructor
  · intro member
    obtain ⟨before, behind, parts⟩ := List.append_of_mem member
    refine List.lookup_eq_some_iff.mpr ⟨before, behind, parts, fun entry earlier => ?_⟩
    rw [Distinct, names, parts, List.map_append, List.nodup_append] at distinct
    have apart := distinct.2.2 entry.1 (List.mem_map_of_mem earlier) name List.mem_cons_self
    exact bne_iff_ne.mpr apart.symm
  · intro found
    obtain ⟨before, behind, parts, _⟩ := List.lookup_eq_some_iff.mp found
    rw [parts]
    exact List.mem_append_right before List.mem_cons_self

end NameIndex

namespace SlotTable

theorem Step.distinct {table : SlotTable} {call : Call} {outcome : Outcome SlotTable Answer}
    (step : table.Step call outcome) (distinct : table.names.Distinct) :
    outcome.state.names.Distinct := by
  cases step with
  | declared fresh lowest => exact distinct.insert _ _
  | @released slot entry held =>
    change NameIndex.Distinct (table.vacate slot entry).names
    rw [vacate]
    cases entry.name with
    | none => exact distinct
    | some name => exact distinct.erase name
  | temporary lowest => exact distinct
  | redeclared known => exact distinct
  | declareFull fresh full => exact distinct
  | temporaryFull full => exact distinct
  | lookup name => exact distinct
  | notInUse free => exact distinct
  | size => exact distinct
  | isEmpty => exact distinct
  | highWater => exact distinct

theorem after_distinct (calls : List Call) : (after calls).names.Distinct := by
  have start : empty.names.Distinct := List.nodup_nil
  exact Run.kept perform (fun table call => (table.perform_step call).distinct) start calls

def tells (table : SlotTable) (name : String) (slot : Slot) : Option (Slot × OperandType) :=
  match table.entry slot with
  | some held => if held.name = some name then some (slot, held.type) else none
  | none => none

def scan (table : SlotTable) (name : String) : Option (Slot × OperandType) :=
  Slot.all.findSome? (table.tells name)

theorem tells_exact {table : SlotTable} {name : String} {slot : Slot}
    {found : Slot × OperandType} :
    table.tells name slot = some found ↔
      table.entry slot = some ⟨some name, found.2⟩ ∧ found.1 = slot := by
  obtain ⟨place, type⟩ := found
  rw [tells]
  cases table.entry slot with
  | none => simp
  | some held =>
    obtain ⟨given, stored⟩ := held
    by_cases same : given = some name
    · simp [same, and_comm, eq_comm]
    · simp [same]

namespace Coherent
variable {table : SlotTable}

theorem unique_name (coherent : table.Coherent) {name : String} {slot other : Slot}
    {type otherType : OperandType} (held : table.entry slot = some ⟨some name, type⟩)
    (again : table.entry other = some ⟨some name, otherType⟩) : slot = other := by
  have one := (coherent.named name slot).mpr ⟨type, held⟩
  have two := (coherent.named name other).mpr ⟨otherType, again⟩
  exact Option.some.inj (one.symm.trans two)

theorem lookup_scan (coherent : table.Coherent) (name : String) :
    table.lookup name = table.scan name := by
  cases scanned : table.scan name with
  | some found =>
    obtain ⟨slot, _, said⟩ := List.exists_of_findSome?_eq_some scanned
    obtain ⟨held, same⟩ := tells_exact.mp said
    exact coherent.lookup_exact.mpr (same ▸ held)
  | none =>
    refine Option.eq_none_iff_forall_ne_some.mpr (fun found leads => ?_)
    have held := coherent.lookup_exact.mp leads
    have silent := List.findSome?_eq_none_iff.mp scanned found.1 found.1.mem_all
    rw [tells_exact.mpr ⟨held, rfl⟩] at silent
    cases silent

theorem contains_lookup (coherent : table.Coherent) (name : String) :
    table.names.contains name = (table.lookup name).isSome := by
  rw [NameIndex.contains]
  cases leads : table.names.find? name with
  | none => rw [lookup, leads]; rfl
  | some slot =>
    obtain ⟨type, held⟩ := (coherent.named name slot).mp leads
    rw [coherent.lookup_exact.mpr held]
    rfl

theorem names_of_slots {other : SlotTable} (coherent : table.Coherent)
    (alongside : other.Coherent) (same : table.slots = other.slots) (name : String) :
    table.names.find? name = other.names.find? name := by
  have entries : table.entry = other.entry := by
    funext slot
    rw [entry, entry, same]
  refine Option.ext (fun slot => ?_)
  rw [coherent.named, alongside.named, entries]

theorem equals_slots {other : SlotTable} (coherent : table.Coherent)
    (alongside : other.Coherent) :
    table.equals other = true ↔ table.slots = other.slots ∧ table.highWater = other.highWater := by
  rw [equals_exact]
  constructor
  · intro same
    exact ⟨same.1, same.2.2⟩
  · intro same
    exact ⟨same.1, coherent.names_of_slots alongside same.1, same.2⟩

end Coherent

theorem names_reflect (calls : List Call) :
    (∀ name slot, (after calls).names.find? name = some slot ↔
      ∃ type, (after calls).entry slot = some ⟨some name, type⟩) ∧
    (∀ name slot, (name, slot) ∈ (after calls).names.entries ↔
      ∃ type, (after calls).entry slot = some ⟨some name, type⟩) ∧
    (∀ name slot other type otherType, (after calls).entry slot = some ⟨some name, type⟩ →
      (after calls).entry other = some ⟨some name, otherType⟩ → slot = other) ∧
    (∀ name, (after calls).lookup name = (after calls).scan name) ∧
    (∀ name, (after calls).names.contains name = ((after calls).lookup name).isSome) ∧
    ∀ others, (after calls).equals (after others) = true ↔
      (after calls).slots = (after others).slots ∧
        (after calls).highWater = (after others).highWater := by
  have coherent := after_coherent calls
  refine ⟨coherent.named, fun name slot => ?_, fun _ _ _ _ _ held again => ?_,
    coherent.lookup_scan, coherent.contains_lookup, fun others => ?_⟩
  · rw [NameIndex.mem_entries (after_distinct calls)]
    exact coherent.named name slot
  · exact coherent.unique_name held again
  · exact coherent.equals_slots (after_coherent others)

end SlotTable
end MethodFrame
