import MethodFrame.Proofs.Journal.Reading
import MethodFrame.Proofs.SlotTable.History

-- A table rebuilt from what its calls logged. Nothing else is asked: a call that logs nothing has
-- changed nothing, and the line of one that has says what it did.
namespace MethodFrame.SlotTable

def replay (table : SlotTable) : Event → SlotTable
  | .declared name type slot => table.place slot ⟨some name, type⟩
  | .temporary type slot => table.place slot ⟨none, type⟩
  | .released slot => match table.entry slot with
    | some entry => table.vacate slot entry
    | none => table
  | .pushed _ _ => table

def rebuild (lines : List (Level × String)) : SlotTable :=
  (lines.filterMap Event.read?).foldl replay empty

def lines (calls : List Call) : List (Level × String) :=
  (Run.journal perform empty calls).map Event.line

theorem Step.replayed {table : SlotTable} {call : Call} {outcome : Outcome SlotTable Answer}
    (step : table.Step call outcome) : outcome.events.foldl replay table = outcome.state := by
  cases step with
  | @released slot entry held =>
    change table.replay (.released slot) = table.vacate slot entry
    rw [replay, held]
  | declared fresh lowest => rfl
  | temporary lowest => rfl
  | redeclared known => rfl
  | declareFull fresh full => rfl
  | temporaryFull full => rfl
  | lookup name => rfl
  | notInUse free => rfl
  | size => rfl
  | isEmpty => rfl
  | highWater => rfl

theorem read_lines (calls : List Call) :
    (lines calls).filterMap Event.read? = Run.journal perform empty calls := by
  have back : Event.read? ∘ Event.line = some := funext Event.read_line
  rw [lines, List.filterMap_map, back, List.filterMap_some]

theorem rebuild_lines (calls : List Call) : rebuild (lines calls) = after calls := by
  rw [rebuild, read_lines]
  exact Run.journal_replayed perform (fun table call => (table.perform_step call).replayed)
    empty calls

theorem equals_refl (table : SlotTable) : table.equals table = true :=
  equals_exact.mpr ⟨rfl, fun _ => rfl, rfl⟩

theorem journal_faithful (first second : List Call) :
    (lines first = lines second → (after first).equals (after second) = true) ∧
      rebuild (lines first) = after first := by
  refine ⟨fun same => ?_, rebuild_lines first⟩
  rw [← rebuild_lines first, ← rebuild_lines second, same]
  exact equals_refl _

end MethodFrame.SlotTable
