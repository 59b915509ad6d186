import MethodFrame.Journal
import MethodFrame.NameIndex

-- The local variables of a method. Each takes the lowest free slot, and an index finds the names.
namespace MethodFrame

-- A temporary is a local without a name.
structure Local where
  name : Option String
  type : OperandType
deriving DecidableEq, Repr

structure SlotTable where
  slots : Vector (Option Local) frameLimit
  names : NameIndex
  highWater : Nat
deriving Repr

namespace SlotTable

def empty : SlotTable := ⟨Vector.replicate frameLimit none, .empty, 0⟩

def entry (table : SlotTable) (slot : Slot) : Option Local :=
  table.slots.get ⟨slot.index, slot.bounded⟩

def setSlots (slots : Vector (Option Local) frameLimit) (slot : Slot) (entry : Option Local) :
    Vector (Option Local) frameLimit :=
  slots.set slot.index entry slot.bounded

def occupied (slots : Vector (Option Local) frameLimit) : Nat :=
  slots.toList.countP Option.isSome

def size (table : SlotTable) : Nat := occupied table.slots

def isEmpty (table : SlotTable) : Bool := table.size = 0

def lookup (table : SlotTable) (name : String) : Option (Slot × OperandType) :=
  match table.names.find? name with
  | none => none
  | some slot => (table.entry slot).map (fun held => (slot, held.type))

-- The search gives a number, and the number has to become a slot. That it always can is not part of
-- the search: the local is in its place, and the mark raised, before the number is narrowed.
def allocate (table : SlotTable) (entry : Local) : Outcome SlotTable Slot :=
  match table.slots.toList.findIdx? Option.isNone with
  | none => .refuse table (.localsExhausted frameLimit)
  | some index =>
    let slots := table.slots.setIfInBounds index (some entry)
    let next := ⟨slots, table.names, max table.highWater (occupied slots)⟩
    match Slot.ofNat? index with
    | none => .refuse next (.unplaced "slot index out of range")
    | some slot => .quiet slot next

-- A name in use is refused before a slot is looked for.
def declare (table : SlotTable) (name : String) (type : OperandType) : Outcome SlotTable Slot :=
  if table.names.contains name then .refuse table (.redeclared name)
  else
    let allocated := table.allocate ⟨some name, type⟩
    match allocated.answer with
    | .error fault => .refuse allocated.state fault
    | .ok slot =>
      let next := allocated.state
      .accept slot ⟨next.slots, next.names.insert name slot, next.highWater⟩
        (.declared name type slot)

def temporary (table : SlotTable) (type : OperandType) : Outcome SlotTable Slot :=
  let allocated := table.allocate ⟨none, type⟩
  match allocated.answer with
  | .error fault => .refuse allocated.state fault
  | .ok slot => .accept slot allocated.state (.temporary type slot)

-- The slot is emptied before anyone looks whether there was a local.
def release (table : SlotTable) (slot : Slot) : Outcome SlotTable Unit :=
  let slots := setSlots table.slots slot none
  match table.entry slot with
  | none => .refuse ⟨slots, table.names, table.highWater⟩ (.slotNotInUse slot.index)
  | some held =>
    let names := match held.name with
      | some name => table.names.erase name
      | none => table.names
    .accept () ⟨slots, names, table.highWater⟩ (.released slot)

def equals (left right : SlotTable) : Bool :=
  left.slots = right.slots && left.names.agrees right.names && left.highWater = right.highWater

theorem equals_exact {left right : SlotTable} : left.equals right = true ↔
    left.slots = right.slots ∧ (∀ name, left.names.find? name = right.names.find? name) ∧
      left.highWater = right.highWater := by
  simp [equals, NameIndex.agrees_exact, and_assoc]

end SlotTable
end MethodFrame
