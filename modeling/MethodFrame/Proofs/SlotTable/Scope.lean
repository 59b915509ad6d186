import Mathlib.Data.List.FinRange
import Mathlib.Data.List.Perm.Basic
import MethodFrame.Proofs.SlotTable.Naming

-- What the locals of a block take from a table, and that giving all of it back, in whichever order,
-- leaves the table as the block found it, the mark apart.
namespace MethodFrame

theorem NameIndex.erase_fresh {index : NameIndex} {name : String}
    (fresh : index.find? name = none) : index.erase name = index := by
  refine congrArg NameIndex.mk (List.filter_eq_self.mpr fun known member => decide_eq_true ?_)
  have other := List.lookup_eq_none_iff.mp fresh known member
  exact (bne_iff_ne.mp other).symm

namespace SlotTable

def holes (table : SlotTable) : List Slot := Slot.all.filter (fun slot => (table.entry slot).isNone)

def Grants (table : SlotTable) (calls : List Call) (slots : List Slot) : Prop :=
  (Run.records perform table calls).map Record.answer = slots.map (fun slot => .ok (.slot slot))

def without (table : SlotTable) (slot : Slot) : SlotTable :=
  ⟨setSlots table.slots slot none, ⟨table.names.entries.filter (fun entry => entry.2 ≠ slot)⟩,
    table.highWater⟩

-- Grants one after the other: each time the lowest free slot, and a name, if any, that is new.
inductive Takes : SlotTable → List Call → List Slot → Prop where
  | nil (table : SlotTable) : Takes table [] []
  | cons {table : SlotTable} {call : Call} {slot : Slot} {entry : Local} {rest : List Call}
      {more : List Slot} (lowest : table.LowestFree slot)
      (fresh : ∀ name, entry.name = some name → table.names.find? name = none)
      (placed : (table.perform call).state = table.place slot entry)
      (later : Takes (table.place slot entry) rest more) : Takes table (call :: rest) (slot :: more)

theorem Grants.takes {table : SlotTable} {calls : List Call} {slots : List Slot}
    (grants : table.Grants calls slots) : Takes table calls slots := by
  induction calls generalizing table slots with
  | nil =>
    rw [Grants, Run.records, List.map_nil, eq_comm, List.map_eq_nil_iff] at grants
    rw [grants]
    exact .nil table
  | cons call rest ih =>
    cases slots with
    | nil => cases grants
    | cons slot more =>
      obtain ⟨first, others⟩ := List.cons.inj grants
      obtain ⟨lowest, entry, fresh, placed⟩ := (table.perform_step call).granted first
      rw [placed] at others
      exact .cons lowest fresh placed (ih others)

theorem mem_holes {table : SlotTable} {slot : Slot} : slot ∈ table.holes ↔ table.Free slot := by
  rw [holes, List.mem_filter, Option.isNone_iff_eq_none]
  exact and_iff_right slot.mem_all

theorem holes_increasing (table : SlotTable) :
    table.holes.Pairwise (fun slot later => slot.index < later.index) := by
  refine List.Pairwise.filter _ ?_
  rw [Slot.all, List.pairwise_map]
  exact List.pairwise_lt_finRange frameLimit

theorem holes_place (table : SlotTable) (slot : Slot) (entry : Local) :
    (table.place slot entry).holes = table.holes.filter (fun other => other ≠ slot) := by
  rw [holes, holes, List.filter_filter]
  refine List.filter_congr (fun other _ => ?_)
  rw [entry_place]
  by_cases same : other = slot <;> simp [same]

theorem LowestFree.holes {table : SlotTable} {slot : Slot} (lowest : table.LowestFree slot)
    (entry : Local) : table.holes = slot :: (table.place slot entry).holes := by
  have member := mem_holes.mpr lowest.1
  have increasing := table.holes_increasing
  rw [holes_place]
  cases found : table.holes with
  | nil =>
    rw [found] at member
    cases member
  | cons first rest =>
    rw [found] at member increasing
    obtain ⟨above, _⟩ := List.pairwise_cons.mp increasing
    have same : first = slot := by
      rcases List.mem_cons.mp member with same | behind
      · exact same.symm
      · have free : table.Free first := by
          rw [← mem_holes, found]
          exact List.mem_cons_self
        exact absurd free (lowest.2 first (above slot behind))
    subst same
    have others : rest.filter (fun other => other ≠ first) = rest := by
      refine List.filter_eq_self.mpr (fun other behind => decide_eq_true ?_)
      rintro rfl
      exact Nat.lt_irrefl _ (above other behind)
    rw [List.filter_cons_of_neg (by simp), others]

namespace Takes
variable {table : SlotTable} {calls : List Call} {slots : List Slot}

theorem length (takes : Takes table calls slots) : slots.length = calls.length := by
  induction takes with
  | nil table => rfl
  | cons lowest fresh placed later ih => exact congrArg (· + 1) ih

theorem holes (takes : Takes table calls slots) :
    table.holes = slots ++ (Run.finish perform table calls).holes := by
  induction takes with
  | nil table => rfl
  | @cons table call slot entry rest more lowest fresh placed later ih =>
    rw [Run.finish, placed, lowest.holes entry, ih, List.cons_append]

end Takes

theorem place_named {table : SlotTable} {slot : Slot} {entry : Local} {name : String}
    (given : entry.name = some name) :
    (table.place slot entry).names = table.names.insert name slot := by
  rw [place, given]

theorem place_unnamed {table : SlotTable} {slot : Slot} {entry : Local}
    (given : entry.name = none) : (table.place slot entry).names = table.names := by
  rw [place, given]

theorem without_comm (table : SlotTable) (slot other : Slot) :
    (table.without slot).without other = (table.without other).without slot := by
  by_cases same : slot = other
  · rw [same]
  · have apart : slot.index ≠ other.index := fun equal => same (Slot.eq_of_index equal)
    simp only [without, setSlots, List.filter_filter, Bool.and_comm, Vector.set_comm _ _ apart]

namespace Coherent
variable {table : SlotTable} {slot : Slot}

theorem mem_entries (coherent : table.Coherent) (distinct : table.names.Distinct) {name : String} :
    (name, slot) ∈ table.names.entries ↔ ∃ type, table.entry slot = some ⟨some name, type⟩ := by
  rw [NameIndex.mem_entries distinct, coherent.named]

theorem leads_exact (coherent : table.Coherent) (distinct : table.names.Distinct) {entry : Local}
    (held : table.entry slot = some entry) {known : String × Slot}
    (member : known ∈ table.names.entries) : entry.name = some known.1 ↔ known.2 = slot := by
  obtain ⟨name, target⟩ := known
  obtain ⟨type, kept⟩ := (coherent.mem_entries distinct).mp member
  constructor
  · intro given
    have again : table.entry slot = some ⟨some name, entry.type⟩ := by rw [held, ← given]
    exact coherent.unique_name kept again
  · rintro rfl
    cases held.symm.trans kept
    rfl

-- A release erases by name. As each name leads to a slot of its own, it could as well erase by
-- slot, and said this way the order of two releases cannot matter.
theorem vacate_without (coherent : table.Coherent) (distinct : table.names.Distinct)
    {entry : Local} (held : table.entry slot = some entry) :
    table.vacate slot entry = table.without slot := by
  rw [SlotTable.vacate, without]
  congr 1
  cases given : entry.name with
  | none =>
    refine congrArg NameIndex.mk (List.filter_eq_self.mpr fun known member => ?_).symm
    rw [decide_eq_true_eq, ne_eq, ← coherent.leads_exact distinct held member, given]
    exact (Option.some_ne_none _).symm
  | some name =>
    refine congrArg NameIndex.mk (List.filter_congr fun known member => ?_)
    rw [decide_eq_decide, not_iff_not, ← coherent.leads_exact distinct held member, given,
      Option.some_inj, eq_comm]

theorem without_place (coherent : table.Coherent) (distinct : table.names.Distinct)
    (free : table.Free slot) {entry : Local}
    (fresh : ∀ name, entry.name = some name → table.names.find? name = none) :
    (table.place slot entry).without slot =
      { table with highWater := (table.place slot entry).highWater } := by
  have slots : setSlots (setSlots table.slots slot (some entry)) slot none = table.slots := by
    rw [setSlots, setSlots, Vector.set_set]
    exact setSlots_free free
  have old : table.names.entries.filter (fun known => known.2 ≠ slot) = table.names.entries := by
    refine List.filter_eq_self.mpr fun known member => decide_eq_true ?_
    rintro rfl
    obtain ⟨type, kept⟩ := (coherent.mem_entries distinct).mp member
    rw [free] at kept
    cases kept
  have names : (table.place slot entry).names.entries.filter (fun known => known.2 ≠ slot) =
      table.names.entries := by
    cases given : entry.name with
    | none => rw [place_unnamed given, old]
    | some name =>
      rw [place_named given, NameIndex.insert, NameIndex.erase_fresh (fresh name given),
        List.filter_cons_of_neg (by simp), old]
  rw [without, names]
  exact congrArg (fun kept => SlotTable.mk kept table.names _) slots

end Coherent

theorem release_all {table : SlotTable} (coherent : table.Coherent)
    (distinct : table.names.Distinct) {order : List Slot} (once : order.Nodup)
    (used : ∀ slot ∈ order, ¬table.Free slot) :
    (∀ record ∈ Run.records perform table (order.map .release), record.answer = .ok .done) ∧
      Run.finish perform table (order.map .release) = order.foldl without table := by
  induction order generalizing table with
  | nil => exact ⟨List.forall_mem_nil _, rfl⟩
  | cons slot rest ih =>
    obtain ⟨first, others⟩ := List.forall_mem_cons.mp used
    obtain ⟨behind, distinctRest⟩ := List.nodup_cons.mp once
    obtain ⟨entry, held⟩ := Option.ne_none_iff_exists'.mp first
    have step := Step.released held
    have kept : ∀ other ∈ rest, ¬(table.vacate slot entry).Free other := by
      intro other member
      rw [Free, entry_vacate, if_neg (fun same : other = slot => behind (same ▸ member))]
      exact others other member
    obtain ⟨answers, finish⟩ := ih (coherent.step step) (step.distinct distinct) distinctRest kept
    rw [List.map_cons, Run.records, Run.finish, step.performed]
    refine ⟨List.forall_mem_cons.mpr ⟨rfl, answers⟩, ?_⟩
    rw [List.foldl_cons, ← coherent.vacate_without distinct held]
    exact finish

theorem Takes.restored {table : SlotTable} {calls : List Call} {slots : List Slot}
    (takes : Takes table calls slots) (coherent : table.Coherent)
    (distinct : table.names.Distinct) :
    slots.foldr (fun slot later => later.without slot) (Run.finish perform table calls) =
      { table with highWater := max table.highWater (table.size + slots.length) } := by
  induction takes with
  | nil table =>
    have mark : max table.highWater (table.size + 0) = table.highWater :=
      Nat.max_eq_left coherent.within
    simp only [List.foldr_nil, Run.finish, List.length_nil, mark]
  | @cons table call slot entry rest more lowest fresh placed later ih =>
    have step := table.perform_step call
    have next := coherent.step step
    have nextDistinct := step.distinct distinct
    rw [placed] at next nextDistinct
    have mark : max (table.place slot entry).highWater
          ((table.place slot entry).size + more.length) =
        max table.highWater (table.size + (slot :: more).length) := by
      rw [highWater_place lowest.1, size_place lowest.1, List.length_cons]
      omega
    -- Taking out the first slot leaves any mark alone.
    have first := congrArg (fun earlier : SlotTable => { earlier with
      highWater := max table.highWater (table.size + (slot :: more).length) })
      (coherent.without_place distinct lowest.1 fresh)
    rw [List.foldr_cons, Run.finish, placed, ih next nextDistinct, mark]
    exact first

theorem scope_restores (calls requests : List Call) (slots : List Slot)
    (grants : (after calls).Grants requests slots) :
    slots = (after calls).holes.take requests.length ∧
      slots.Pairwise (fun slot later => slot.index < later.index) ∧
      ∀ order : List Slot, order.Perm slots →
        (∀ record ∈ Run.records perform (after (calls ++ requests)) (order.map .release),
          record.answer = .ok .done) ∧
        after (calls ++ requests ++ order.map .release) = { after calls with
          highWater := max (after calls).highWater ((after calls).size + requests.length) } := by
  have takes := grants.takes
  have holes := takes.holes
  have increasing := (after calls).holes_increasing
  have start : Run.finish perform (after calls) requests = after (calls ++ requests) :=
    (Run.finish_append perform empty calls requests).symm
  rw [start] at holes
  rw [holes, List.pairwise_append] at increasing
  obtain ⟨ascending, _, apart⟩ := increasing
  refine ⟨?_, ascending, fun order reordered => ?_⟩
  · rw [holes, ← takes.length, List.take_left]
  · have distinct : slots.Nodup := by
      refine ascending.imp fun {slot later} lower same => ?_
      exact Nat.ne_of_lt lower (congrArg Slot.index same)
    have once := reordered.nodup_iff.mpr distinct
    have used : ∀ slot ∈ order, ¬(after (calls ++ requests)).Free slot := fun slot member free =>
      Nat.lt_irrefl _ (apart slot (reordered.mem_iff.mp member) slot (mem_holes.mpr free))
    obtain ⟨answers, released⟩ := release_all (after_coherent (calls ++ requests))
      (after_distinct (calls ++ requests)) once used
    have restored := takes.restored (after_coherent calls) (after_distinct calls)
    refine ⟨answers, ?_⟩
    rw [start, takes.length] at restored
    calc after (calls ++ requests ++ order.map .release)
        = order.foldl without (after (calls ++ requests)) := by
          rw [after, Run.finish_append]
          exact released
      _ = slots.reverse.foldl without (after (calls ++ requests)) :=
          (reordered.trans (List.reverse_perm slots).symm).foldl_eq'
            (fun slot _ other _ table => without_comm table slot other) _
      _ = slots.foldr (fun slot later => later.without slot) (after (calls ++ requests)) :=
          List.foldl_reverse
      _ = _ := restored

-- A block that first fills a hole, with its locals given back out of order.
theorem scope_restores_hole :
    (after [.declare "a" .int, .temporary .float, .declare "b" .string,
        .release ⟨0, by decide⟩]).Grants
      [.temporary .int, .declare "a" .float, .temporary .string]
      [⟨0, by decide⟩, ⟨3, by decide⟩, ⟨4, by decide⟩] ∧
    after [.declare "a" .int, .temporary .float, .declare "b" .string, .release ⟨0, by decide⟩,
        .temporary .int, .declare "a" .float, .temporary .string,
        .release ⟨3, by decide⟩, .release ⟨0, by decide⟩, .release ⟨4, by decide⟩] =
      { after [.declare "a" .int, .temporary .float, .declare "b" .string,
          .release ⟨0, by decide⟩] with highWater := 5 } := by
  have grants : (after [.declare "a" .int, .temporary .float, .declare "b" .string,
      .release ⟨0, by decide⟩]).Grants [.temporary .int, .declare "a" .float, .temporary .string]
      [⟨0, by decide⟩, ⟨3, by decide⟩, ⟨4, by decide⟩] := rfl
  obtain ⟨_, _, restored⟩ := scope_restores _ _ _ grants
  exact ⟨grants, (restored [⟨3, by decide⟩, ⟨0, by decide⟩, ⟨4, by decide⟩] (.swap _ _ _)).2⟩

end SlotTable
end MethodFrame
