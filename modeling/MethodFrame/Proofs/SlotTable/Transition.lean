import MethodFrame.Proofs.SlotTable.Cells

-- The calls on a table as one transition function, and the rules that it follows.
namespace MethodFrame.SlotTable

inductive Call where
  | declare (name : String) (type : OperandType)
  | temporary (type : OperandType)
  | lookup (name : String)
  | release (slot : Slot)
  | size
  | isEmpty
  | highWater
deriving DecidableEq

inductive Answer where
  | slot (slot : Slot)
  | binding (found : Option (Slot × OperandType))
  | done
  | count (number : Nat)
  | flag (value : Bool)
deriving DecidableEq

def perform (table : SlotTable) : Call → Outcome SlotTable Answer
  | .declare name type => (table.declare name type).map .slot
  | .temporary type => (table.temporary type).map .slot
  | .lookup name => .quiet (.binding (table.lookup name)) table
  | .release slot => (table.release slot).map (fun _ => .done)
  | .size => .quiet (.count table.size) table
  | .isEmpty => .quiet (.flag table.isEmpty) table
  | .highWater => .quiet (.count table.highWater) table

def place (table : SlotTable) (slot : Slot) (entry : Local) : SlotTable :=
  ⟨setSlots table.slots slot (some entry),
    match entry.name with
    | some name => table.names.insert name slot
    | none => table.names,
    max table.highWater (occupied (setSlots table.slots slot (some entry)))⟩

def vacate (table : SlotTable) (slot : Slot) (entry : Local) : SlotTable :=
  ⟨setSlots table.slots slot none,
    match entry.name with
    | some name => table.names.erase name
    | none => table.names,
    table.highWater⟩

inductive Step (table : SlotTable) : Call → Outcome SlotTable Answer → Prop where
  | declared {name : String} {type : OperandType} {slot : Slot}
      (fresh : table.names.contains name = false) (lowest : table.LowestFree slot) :
      Step table (.declare name type)
        (.accept (.slot slot) (table.place slot ⟨some name, type⟩) (.declared name type slot))
  | redeclared {name : String} {type : OperandType} (known : table.names.contains name = true) :
      Step table (.declare name type) (.refuse table (.redeclared name))
  | declareFull {name : String} {type : OperandType}
      (fresh : table.names.contains name = false) (full : table.Full) :
      Step table (.declare name type) (.refuse table (.localsExhausted frameLimit))
  | temporary {type : OperandType} {slot : Slot} (lowest : table.LowestFree slot) :
      Step table (.temporary type)
        (.accept (.slot slot) (table.place slot ⟨none, type⟩) (.temporary type slot))
  | temporaryFull {type : OperandType} (full : table.Full) :
      Step table (.temporary type) (.refuse table (.localsExhausted frameLimit))
  | lookup (name : String) :
      Step table (.lookup name) (.quiet (.binding (table.lookup name)) table)
  | released {slot : Slot} {entry : Local} (held : table.entry slot = some entry) :
      Step table (.release slot) (.accept .done (table.vacate slot entry) (.released slot))
  | notInUse {slot : Slot} (free : table.Free slot) :
      Step table (.release slot) (.refuse table (.slotNotInUse slot.index))
  | size : Step table .size (.quiet (.count table.size) table)
  | isEmpty : Step table .isEmpty (.quiet (.flag table.isEmpty) table)
  | highWater : Step table .highWater (.quiet (.count table.highWater) table)

theorem allocate_full {table : SlotTable} (full : table.Full) (entry : Local) :
    table.allocate entry = .refuse table (.localsExhausted frameLimit) := by
  rw [allocate, search_full.mpr full]

theorem allocate_lowest {table : SlotTable} {slot : Slot} (lowest : table.LowestFree slot)
    (entry : Local) :
    table.allocate entry = .quiet slot ⟨setSlots table.slots slot (some entry), table.names,
      max table.highWater (occupied (setSlots table.slots slot (some entry)))⟩ := by
  have made := Slot.ofNat_exact.mpr (rfl : slot.index = slot.index)
  simp only [allocate, search_lowest.mpr lowest, made, setSlots_inBounds]

theorem Step.performed {table : SlotTable} {call : Call} {outcome : Outcome SlotTable Answer}
    (step : table.Step call outcome) : table.perform call = outcome := by
  cases step with
  | declared fresh lowest =>
    rw [perform, declare, fresh, allocate_lowest lowest]
    rfl
  | redeclared known =>
    rw [perform, declare, known]
    rfl
  | declareFull fresh full =>
    rw [perform, declare, fresh, allocate_full full]
    rfl
  | temporary lowest =>
    rw [perform, SlotTable.temporary, allocate_lowest lowest]
    rfl
  | temporaryFull full =>
    rw [perform, SlotTable.temporary, allocate_full full]
    rfl
  | released held =>
    rw [perform, release, held]
    rfl
  | notInUse free =>
    rw [perform, release, free, setSlots_free free]
    rfl
  | lookup name => rfl
  | size => rfl
  | isEmpty => rfl
  | highWater => rfl

theorem Step.taken {table : SlotTable} {call : Call} {outcome : Outcome SlotTable Answer}
    (step : table.Step call outcome) : table.Step call (table.perform call) := by
  rw [step.performed]
  exact step

theorem perform_step (table : SlotTable) (call : Call) : table.Step call (table.perform call) := by
  cases call with
  | declare name type =>
    cases known : table.names.contains name with
    | true => exact (Step.redeclared known).taken
    | false =>
      rcases table.full_or_lowest with full | ⟨slot, lowest⟩
      · exact (Step.declareFull known full).taken
      · exact (Step.declared known lowest).taken
  | temporary type =>
    rcases table.full_or_lowest with full | ⟨slot, lowest⟩
    · exact (Step.temporaryFull full).taken
    · exact (Step.temporary lowest).taken
  | lookup name => exact .lookup name
  | release slot =>
    cases held : table.entry slot with
    | none => exact (Step.notInUse held).taken
    | some entry => exact (Step.released held).taken
  | size => exact .size
  | isEmpty => exact .isEmpty
  | highWater => exact .highWater

theorem Step.refused {table : SlotTable} {call : Call} {outcome : Outcome SlotTable Answer}
    (step : table.Step call outcome) {fault : Fault} (failed : outcome.answer = .error fault) :
    outcome.state = table ∧ outcome.events = [] := by
  cases step with
  | redeclared known => exact ⟨rfl, rfl⟩
  | declareFull fresh full => exact ⟨rfl, rfl⟩
  | temporaryFull full => exact ⟨rfl, rfl⟩
  | notInUse free => exact ⟨rfl, rfl⟩
  | _ => cases failed

variable {table : SlotTable} {slot : Slot} {entry : Local}

theorem entry_place (other : Slot) :
    (table.place slot entry).entry other = if other = slot then some entry else table.entry other :=
  entry_setSlots table _ _ slot other (some entry)

theorem entry_vacate (other : Slot) :
    (table.vacate slot entry).entry other = if other = slot then none else table.entry other :=
  entry_setSlots table _ _ slot other none

theorem find_place (name : String) : (table.place slot entry).names.find? name =
    if entry.name = some name then some slot else table.names.find? name := by
  cases entry with
  | mk held type =>
    cases held with
    | none => simp [place]
    | some given => simp [place, NameIndex.find_insert, eq_comm]

theorem find_vacate (name : String) : (table.vacate slot entry).names.find? name =
    if entry.name = some name then none else table.names.find? name := by
  cases entry with
  | mk held type =>
    cases held with
    | none => simp [vacate]
    | some given => simp [vacate, NameIndex.find_erase, eq_comm]

theorem size_place (free : table.Free slot) : (table.place slot entry).size = table.size + 1 := by
  have counted := occupied_setSlots table slot (some entry)
  rw [free] at counted
  exact counted

theorem size_vacate (held : table.entry slot = some entry) :
    (table.vacate slot entry).size + 1 = table.size := by
  have counted := occupied_setSlots table slot none
  rw [held] at counted
  exact counted

theorem highWater_place (free : table.Free slot) :
    (table.place slot entry).highWater = max table.highWater (table.size + 1) :=
  congrArg (max table.highWater) (size_place free)

end MethodFrame.SlotTable
