import MethodFrame.Proofs.Run
import MethodFrame.Proofs.SlotTable.Invariant

-- The history of a table decides every answer: which grants are still live says who holds which
-- slot under which name, and with it what each further call is told.
namespace MethodFrame.SlotTable

abbrev History := List (Record Call Answer)

def after (calls : List Call) : SlotTable := Run.finish perform empty calls

def history (calls : List Call) : History := Run.records perform empty calls

structure Grant where
  entry : Local
  slot : Slot
deriving DecidableEq

def granted? (record : Record Call Answer) : Option Grant :=
  match record.call, record.answer with
  | .declare name type, .ok (.slot slot) => some ⟨⟨some name, type⟩, slot⟩
  | .temporary type, .ok (.slot slot) => some ⟨⟨none, type⟩, slot⟩
  | _, _ => none

def frees (record : Record Call Answer) (slot : Slot) : Bool :=
  match record.call, record.answer with
  | .release freed, .ok _ => slot = freed
  | _, _ => false

-- A grant is live as long as no later call gave its slot back.
def live : History → List Grant
  | [] => []
  | record :: later => match granted? record with
    | some grant =>
      if later.any (frees · grant.slot) then live later else grant :: live later
    | none => live later

-- One more than the largest slot number ever granted, and zero as long as none was.
def extent (history : History) : Nat :=
  (history.filterMap granted?).foldl (fun most grant => max most (grant.slot.index + 1)) 0

def carries (grants : List Grant) (name : String) : Bool :=
  grants.any (fun grant => grant.entry.name = some name)

def holds (grants : List Grant) (slot : Slot) : Bool := grants.any (fun grant => grant.slot = slot)

def Allotted (grants : List Grant) (answer : Except Fault Answer) : Prop :=
  if grants.length = frameLimit then answer = .error (.localsExhausted frameLimit)
  else ∃ slot, answer = .ok (.slot slot) ∧ holds grants slot = false ∧
    ∀ lower : Slot, lower.index < slot.index → holds grants lower = true

def Due (history : History) : Call → Except Fault Answer → Prop
  | .declare name _, answer =>
    if carries (live history) name then answer = .error (.redeclared name)
    else Allotted (live history) answer
  | .temporary _, answer => Allotted (live history) answer
  | .lookup name, answer => ∃ found, answer = .ok (.binding found) ∧
      ∀ slot type, found = some (slot, type) ↔ ⟨⟨some name, type⟩, slot⟩ ∈ live history
  | .release slot, answer =>
    answer = if holds (live history) slot then .ok .done else .error (.slotNotInUse slot.index)
  | .size, answer => answer = .ok (.count (live history).length)
  | .isEmpty, answer => answer = .ok (.flag (live history).isEmpty)
  | .highWater, answer => answer = .ok (.count (extent history))

theorem live_snoc (past : History) (record : Record Call Answer) :
    live (past ++ [record]) =
      (live past).filter (fun grant => !frees record grant.slot) ++ (granted? record).toList := by
  induction past with
  | nil =>
    simp only [List.nil_append, live, List.any_nil, List.filter_nil]
    cases granted? record <;> rfl
  | cons first later ih =>
    simp only [List.cons_append, live, List.any_append, List.any_cons, List.any_nil, Bool.or_false]
    cases granted? first with
    | none => exact ih
    | some grant =>
      simp only [ih]
      cases later.any (frees · grant.slot) <;> cases freed : frees record grant.slot <;>
        simp [freed]

theorem extent_snoc (past : History) (record : Record Call Answer) :
    extent (past ++ [record]) =
      (granted? record).elim (extent past) (fun grant => max (extent past) (grant.slot.index + 1)) := by
  rw [extent, List.filterMap_append, List.foldl_append]
  cases given : granted? record with
  | none => simp [given, extent]
  | some grant => simp [given, extent]

theorem length_filter_slot {grants : List Grant} {slot : Slot}
    (distinct : (grants.map Grant.slot).Nodup) (member : slot ∈ grants.map Grant.slot) :
    (grants.filter (fun grant => !decide (grant.slot = slot))).length + 1 = grants.length := by
  have once := distinct.count (a := slot)
  rw [if_pos member, List.count_eq_countP, List.countP_map] at once
  have parts := List.length_eq_countP_add_countP (fun grant => grant.slot == slot) (l := grants)
  have same : (fun grant : Grant => !decide (grant.slot = slot)) =
      (fun grant => decide ¬(grant.slot == slot) = true) := by
    funext grant
    simp
  rw [← List.countP_eq_length_filter, same, parts]
  change _ = grants.countP ((· == slot) ∘ Grant.slot) + _
  rw [once, Nat.add_comm]

-- The grants account for the table: one for each slot in use, with the local that is in it.
structure Accounts (grants : List Grant) (table : SlotTable) : Prop where
  held : ∀ slot entry, table.entry slot = some entry ↔ ⟨entry, slot⟩ ∈ grants
  distinct : (grants.map Grant.slot).Nodup
  counted : table.size = grants.length

namespace Accounts
variable {grants : List Grant} {table : SlotTable} {slot : Slot}

theorem holds_exact (accounts : Accounts grants table) (slot : Slot) :
    holds grants slot = true ↔ ¬table.Free slot := by
  simp only [holds, List.any_eq_true, decide_eq_true_eq]
  constructor
  · intro found free
    obtain ⟨grant, member, same⟩ := found
    have kept := (accounts.held grant.slot grant.entry).mpr member
    rw [same, free] at kept
    cases kept
  · intro used
    obtain ⟨entry, kept⟩ := Option.ne_none_iff_exists'.mp used
    exact ⟨⟨entry, slot⟩, (accounts.held slot entry).mp kept, rfl⟩

theorem carries_exact (accounts : Accounts grants table) (coherent : table.Coherent)
    (name : String) : carries grants name = table.names.contains name := by
  rw [Bool.eq_iff_iff]
  simp only [carries, List.any_eq_true, decide_eq_true_eq, NameIndex.contains,
    Option.isSome_iff_exists]
  constructor
  · intro found
    obtain ⟨grant, member, same⟩ := found
    refine ⟨grant.slot, (coherent.named name grant.slot).mpr ⟨grant.entry.type, ?_⟩⟩
    rw [(accounts.held grant.slot grant.entry).mpr member, ← same]
  · intro known
    obtain ⟨slot, leads⟩ := known
    obtain ⟨type, kept⟩ := (coherent.named name slot).mp leads
    exact ⟨_, (accounts.held slot _).mp kept, rfl⟩

theorem place (accounts : Accounts grants table) (free : table.Free slot) (entry : Local) :
    Accounts (grants ++ [⟨entry, slot⟩]) (table.place slot entry) := by
  have unheld : ∀ grant ∈ grants, grant.slot ≠ slot := by
    intro grant member same
    have kept := (accounts.held grant.slot grant.entry).mpr member
    rw [same, free] at kept
    cases kept
  refine ⟨fun other held => ?_, ?_, ?_⟩
  · rw [entry_place, List.mem_append, List.mem_singleton]
    by_cases same : other = slot
    · subst same
      rw [if_pos rfl]
      constructor
      · intro kept
        cases kept
        exact .inr rfl
      · intro member
        rcases member with old | fresh
        · exact absurd rfl (unheld _ old)
        · cases fresh
          rfl
    · rw [if_neg same, accounts.held]
      constructor
      · intro old
        exact .inl old
      · intro member
        rcases member with old | fresh
        · exact old
        · cases fresh
          exact absurd rfl same
  · rw [List.map_append, List.nodup_append]
    refine ⟨accounts.distinct, by simp, ?_⟩
    intro left old right fresh
    obtain ⟨grant, member, same⟩ := List.mem_map.mp old
    rw [List.mem_singleton.mp fresh, ← same]
    exact unheld grant member
  · rw [size_place free, accounts.counted, List.length_append, List.length_singleton]

theorem vacate (accounts : Accounts grants table) {entry : Local}
    (held : table.entry slot = some entry) :
    Accounts (grants.filter (fun grant => !decide (grant.slot = slot)))
      (table.vacate slot entry) := by
  refine ⟨fun other kept => ?_, ?_, ?_⟩
  · rw [entry_vacate, List.mem_filter]
    by_cases same : other = slot
    · simp [same]
    · rw [if_neg same, accounts.held]
      simp [same]
  · exact accounts.distinct.sublist (List.filter_sublist.map Grant.slot)
  · have member : slot ∈ grants.map Grant.slot :=
      List.mem_map_of_mem ((accounts.held slot entry).mp held)
    have shorter := length_filter_slot accounts.distinct member
    have smaller := size_vacate held
    have counted := accounts.counted
    omega

end Accounts

structure Follows (past : History) (table : SlotTable) : Prop where
  coherent : table.Coherent
  accounts : Accounts (live past) table
  mark : table.highWater = extent past

namespace Follows
variable {past : History} {table : SlotTable} {slot : Slot} {entry : Local}

theorem start : Follows [] empty := by
  refine ⟨coherent_empty, ⟨fun slot entry => ?_, List.nodup_nil, size_empty⟩, rfl⟩
  simp [entry_empty, live]

theorem grant (follows : Follows past table) (lowest : table.LowestFree slot)
    {record : Record Call Answer} (next : (table.place slot entry).Coherent)
    (granted : granted? record = some ⟨entry, slot⟩) (kept : ∀ other, frees record other = false) :
    Follows (past ++ [record]) (table.place slot entry) := by
  refine ⟨next, ?_, ?_⟩
  · rw [live_snoc, granted, List.filter_eq_self.mpr (fun grant _ => by rw [kept]; rfl)]
    exact follows.accounts.place lowest.1 entry
  · rw [extent_snoc, granted, follows.coherent.highWater_lowest lowest, follows.mark]
    rfl

theorem release (follows : Follows past table) (held : table.entry slot = some entry) :
    Follows (past ++ [⟨.release slot, .ok .done⟩]) (table.vacate slot entry) := by
  refine ⟨follows.coherent.vacate held, ?_, ?_⟩
  · rw [live_snoc]
    simpa [granted?, frees] using follows.accounts.vacate held
  · rw [extent_snoc]
    exact follows.mark

theorem other (follows : Follows past table) {record : Record Call Answer}
    (nothing : granted? record = none) (kept : ∀ slot, frees record slot = false) :
    Follows (past ++ [record]) table := by
  refine ⟨follows.coherent, ?_, ?_⟩
  · rw [live_snoc, nothing, List.filter_eq_self.mpr (fun grant _ => by rw [kept]; rfl)]
    simpa using follows.accounts
  · rw [extent_snoc, nothing]
    exact follows.mark

theorem step (follows : Follows past table) {call : Call} {outcome : Outcome SlotTable Answer}
    (step : table.Step call outcome) :
    Follows (past ++ [⟨call, outcome.answer⟩]) outcome.state := by
  have next := follows.coherent.step step
  cases step with
  | declared fresh lowest => exact follows.grant lowest next rfl (fun _ => rfl)
  | temporary lowest => exact follows.grant lowest next rfl (fun _ => rfl)
  | released held => exact follows.release held
  | redeclared known => exact follows.other rfl (fun _ => rfl)
  | declareFull fresh full => exact follows.other rfl (fun _ => rfl)
  | temporaryFull full => exact follows.other rfl (fun _ => rfl)
  | lookup name => exact follows.other rfl (fun _ => rfl)
  | notInUse free => exact follows.other rfl (fun _ => rfl)
  | size => exact follows.other rfl (fun _ => rfl)
  | isEmpty => exact follows.other rfl (fun _ => rfl)
  | highWater => exact follows.other rfl (fun _ => rfl)

theorem allotted (follows : Follows past table) (lowest : table.LowestFree slot) :
    Allotted (live past) (.ok (.slot slot)) := by
  have accounts := follows.accounts
  have room : (live past).length ≠ frameLimit := by
    intro same
    rw [← accounts.counted, ← full_exact] at same
    exact same slot lowest.1
  rw [Allotted, if_neg room]
  refine ⟨slot, rfl, ?_, fun lower below => ?_⟩
  · rw [Bool.eq_false_iff]
    exact fun held => (accounts.holds_exact slot).mp held lowest.1
  · exact (accounts.holds_exact lower).mpr (lowest.2 lower below)

theorem exhausted (follows : Follows past table) (full : table.Full) :
    Allotted (live past) (.error (.localsExhausted frameLimit)) := by
  have size := full_exact.mp full
  rw [follows.accounts.counted] at size
  rw [Allotted, if_pos size]

theorem due (follows : Follows past table) {call : Call} {outcome : Outcome SlotTable Answer}
    (step : table.Step call outcome) : Due past call outcome.answer := by
  have coherent := follows.coherent
  have accounts := follows.accounts
  have carried := accounts.carries_exact coherent
  cases step with
  | declared fresh lowest =>
    rw [Due, carried, fresh]
    exact follows.allotted lowest
  | redeclared known =>
    rw [Due, carried, known]
    rfl
  | declareFull fresh full =>
    rw [Due, carried, fresh]
    exact follows.exhausted full
  | temporary lowest => exact follows.allotted lowest
  | temporaryFull full => exact follows.exhausted full
  | lookup name =>
    refine ⟨table.lookup name, rfl, fun slot type => ?_⟩
    rw [coherent.lookup_exact, accounts.held]
  | @released slot entry held =>
    have used : holds (live past) slot = true :=
      (accounts.holds_exact slot).mpr (fun free => by rw [free] at held; cases held)
    rw [Due, used]
    rfl
  | @notInUse slot free =>
    have unused : holds (live past) slot = false := by
      rw [Bool.eq_false_iff]
      exact fun held => (accounts.holds_exact slot).mp held free
    rw [Due, unused]
    rfl
  | size =>
    rw [Due, ← accounts.counted]
    rfl
  | isEmpty =>
    have same : table.isEmpty = (live past).isEmpty := by
      rw [SlotTable.isEmpty, accounts.counted, Bool.eq_iff_iff, decide_eq_true_eq,
        List.isEmpty_iff, List.length_eq_zero_iff]
    rw [Due, ← same]
    rfl
  | highWater =>
    rw [Due, ← follows.mark]
    rfl

end Follows

theorem follows_history (calls : List Call) : Follows (history calls) (after calls) :=
  Run.tracked perform (fun _ table call follows => follows.step (table.perform_step call))
    Follows.start calls

theorem answers_due (calls : List Call) :
    (∀ place record, (history calls)[place]? = some record →
      Due ((history calls).take place) record.call record.answer) ∧
    ((live (history calls)).map Grant.slot).Nodup := by
  refine ⟨fun place record found => ?_, (follows_history calls).accounts.distinct⟩
  obtain ⟨call, _, same, before⟩ := Run.records_place perform found
  have follows := follows_history (calls.take place)
  rw [history, before, same]
  exact follows.due (perform_step _ call)

end MethodFrame.SlotTable
