import MethodFrame.Proofs.SlotTable.History

-- The high-water mark of a run: the most slots ever in use at one moment, which is also one more
-- than the largest slot number ever granted, because a grant always takes the lowest free slot.
namespace MethodFrame.SlotTable

-- A release lowers the number of slots in use and not the mark.
theorem Step.raised {table : SlotTable} (within : table.size ≤ table.highWater) {call : Call}
    {outcome : Outcome SlotTable Answer} (step : table.Step call outcome) :
    outcome.state.highWater = max table.highWater outcome.state.size := by
  cases step with
  | declared fresh lowest => rfl
  | temporary lowest => rfl
  | released held =>
    have fewer := Nat.le_of_succ_le (Nat.le_of_eq (size_vacate held))
    exact (Nat.max_eq_left (Nat.le_trans fewer within)).symm
  | _ => exact (Nat.max_eq_left within).symm

theorem Step.granted {table : SlotTable} {call : Call} {outcome : Outcome SlotTable Answer}
    (step : table.Step call outcome) {slot : Slot} (answered : outcome.answer = .ok (.slot slot)) :
    table.LowestFree slot ∧ ∃ entry : Local,
      (∀ name, entry.name = some name → table.names.find? name = none) ∧
        outcome.state = table.place slot entry := by
  cases step with
  | declared fresh lowest =>
    cases answered
    refine ⟨lowest, _, fun name same => ?_, rfl⟩
    cases same
    exact find_none_of_fresh fresh
  | temporary lowest =>
    cases answered
    refine ⟨lowest, _, fun name same => ?_, rfl⟩
    cases same
  | _ => cases answered

theorem after_coherent (calls : List Call) : (after calls).Coherent :=
  (follows_history calls).coherent

theorem size_peak (calls : List Call) :
    (∃ earlier, earlier <+: calls ∧ (after earlier).size = (after calls).highWater) ∧
      ∀ earlier, earlier <+: calls → (after earlier).size ≤ (after calls).highWater :=
  Run.peak perform highWater size
    (fun table call coherent => coherent.step (table.perform_step call))
    (fun table call coherent => (table.perform_step call).raised coherent.within)
    coherent_empty size_empty.symm calls

theorem size_le_highWater {earlier calls : List Call} (early : earlier <+: calls) :
    (after earlier).size ≤ (after calls).highWater := (size_peak calls).2 earlier early

theorem peak_reached (calls : List Call) :
    ∃ earlier, earlier <+: calls ∧ (after earlier).size = (after calls).highWater :=
  (size_peak calls).1

theorem grant_highWater {calls : List Call} {call : Call} {slot : Slot}
    (granted : ((after calls).perform call).answer = .ok (.slot slot)) :
    slot.index ≤ (after calls).highWater ∧
      (after (calls ++ [call])).highWater = max (after calls).highWater (slot.index + 1) := by
  have coherent := after_coherent calls
  obtain ⟨lowest, entry, _, placed⟩ := ((after calls).perform_step call).granted granted
  refine ⟨Nat.le_trans lowest.le_size coherent.within, ?_⟩
  rw [after, Run.finish_snoc]
  change ((after calls).perform call).state.highWater = _
  rw [placed, coherent.highWater_lowest lowest]

theorem highWater_run (calls : List Call) :
    ((∃ earlier, earlier <+: calls ∧ (after earlier).size = (after calls).highWater) ∧
      ∀ earlier, earlier <+: calls → (after earlier).size ≤ (after calls).highWater) ∧
    (after calls).highWater = extent (history calls) ∧
    (∀ slot, ¬(after calls).Free slot → slot.index < (after calls).highWater) ∧
    (after calls).highWater ≤ frameLimit ∧
    ∀ call slot, ((after calls).perform call).answer = .ok (.slot slot) →
      ((after calls).highWater < (after (calls ++ [call])).highWater ↔
        slot.index = (after calls).highWater) ∧
      ((after calls).highWater < (after (calls ++ [call])).highWater →
        (after (calls ++ [call])).highWater = (after calls).highWater + 1) := by
  have coherent := after_coherent calls
  refine ⟨⟨peak_reached calls, fun _ early => size_le_highWater early⟩,
    (follows_history calls).mark, coherent.below, coherent.bounded, ?_⟩
  intro call slot granted
  obtain ⟨low, raised⟩ := grant_highWater granted
  rw [raised]
  omega

end MethodFrame.SlotTable
