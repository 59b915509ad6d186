import Mathlib.Data.List.Induction
import MethodFrame.Journal

-- Runs: the calls made on a component one after the other, refused ones included.
namespace MethodFrame

structure Record (κ α : Type) where
  call : κ
  answer : Except Fault α

namespace Run
variable {σ κ α : Type} (perform : σ → κ → Outcome σ α)

def finish (state : σ) : List κ → σ
  | [] => state
  | call :: rest => finish (perform state call).state rest

def records (state : σ) : List κ → List (Record κ α)
  | [] => []
  | call :: rest => ⟨call, (perform state call).answer⟩ :: records (perform state call).state rest

def journal (state : σ) : List κ → List Event
  | [] => []
  | call :: rest => (perform state call).events ++ journal (perform state call).state rest

theorem finish_append (state : σ) (first second : List κ) :
    finish perform state (first ++ second) = finish perform (finish perform state first) second := by
  induction first generalizing state with
  | nil => rfl
  | cons call rest ih => exact ih (perform state call).state

theorem finish_snoc (state : σ) (calls : List κ) (call : κ) :
    finish perform state (calls ++ [call]) =
      (perform (finish perform state calls) call).state := finish_append perform state calls [call]

theorem records_place {state : σ} {calls : List κ} {place : Nat} {record : Record κ α}
    (found : (records perform state calls)[place]? = some record) :
    ∃ call, calls[place]? = some call ∧
      record = ⟨call, (perform (finish perform state (calls.take place)) call).answer⟩ ∧
      (records perform state calls).take place = records perform state (calls.take place) := by
  induction calls generalizing state place with
  | nil => simp [records] at found
  | cons call rest ih =>
    cases place with
    | zero =>
      simp only [records, List.getElem?_cons_zero, Option.some.injEq] at found
      exact ⟨call, rfl, found.symm, rfl⟩
    | succ place =>
      simp only [records, List.getElem?_cons_succ] at found
      obtain ⟨later, called, same, before⟩ := ih found
      refine ⟨later, called, same, ?_⟩
      simp only [records, List.take_succ_cons, before]

-- What holds of no history and the first state, and is kept by every call, holds
-- of every history and the state behind it.
theorem tracked {valid : List (Record κ α) → σ → Prop}
    (kept : ∀ past state call, valid past state →
      valid (past ++ [⟨call, (perform state call).answer⟩]) (perform state call).state)
    {past : List (Record κ α)} {state : σ} (start : valid past state) (calls : List κ) :
    valid (past ++ records perform state calls) (finish perform state calls) := by
  induction calls generalizing past state with
  | nil => simpa [records, finish] using start
  | cons call rest ih =>
    have next := ih (kept past state call start)
    simpa only [records, finish, List.append_assoc, List.singleton_append] using next

theorem kept {valid : σ → Prop}
    (step : ∀ state call, valid state → valid (perform state call).state) {state : σ}
    (start : valid state) (calls : List κ) : valid (finish perform state calls) := by
  induction calls generalizing state with
  | nil => exact start
  | cons call rest ih => exact ih (step state call start)

-- A mark that every call raises just to the level it leads to is the largest level of the run.
theorem peak (mark level : σ → Nat) {valid : σ → Prop}
    (step : ∀ state call, valid state → valid (perform state call).state)
    (raised : ∀ state call, valid state →
      mark (perform state call).state = max (mark state) (level (perform state call).state))
    {state : σ} (start : valid state) (first : mark state = level state) (calls : List κ) :
    (∃ earlier, earlier <+: calls ∧
      level (finish perform state earlier) = mark (finish perform state calls)) ∧
    ∀ earlier, earlier <+: calls →
      level (finish perform state earlier) ≤ mark (finish perform state calls) := by
  induction calls using List.reverseRecOn with
  | nil => simpa [finish] using And.intro first.symm (Nat.le_of_eq first.symm)
  | append_singleton calls call ih =>
    obtain ⟨⟨earlier, early, most⟩, below⟩ := ih
    have last := raised _ call (kept perform step start calls)
    simp only [← finish_snoc] at last
    rw [last]
    refine ⟨?_, fun shorter part => ?_⟩
    · rcases Nat.le_total (mark (finish perform state calls))
        (level (finish perform state (calls ++ [call]))) with more | still
      · exact ⟨calls ++ [call], List.prefix_rfl, (Nat.max_eq_right more).symm⟩
      · exact ⟨earlier, early.trans (List.prefix_append _ _),
          most.trans (Nat.max_eq_left still).symm⟩
    · rcases List.prefix_concat_iff.mp part with rfl | before
      · exact Nat.le_max_right _ _
      · exact Nat.le_trans (below shorter before) (Nat.le_max_left _ _)

-- What turns the state before each call into the one behind it, given what the
-- call logs, turns the first state of a run into the last one, given the journal.
theorem journal_replayed {replay : σ → Event → σ}
    (step : ∀ state call,
      (perform state call).events.foldl replay state = (perform state call).state)
    (state : σ) (calls : List κ) :
    (journal perform state calls).foldl replay state = finish perform state calls := by
  induction calls generalizing state with
  | nil => rfl
  | cons call rest ih => rw [journal, List.foldl_append, step, ih, finish]

def select {β : Type} (keep : Nat → Bool) : List β → List β
  | [] => []
  | element :: rest =>
    let later := select (fun place => keep (place + 1)) rest
    if keep 0 then element :: later else later

-- Calls that were refused can be taken out of a run, if a refused call does
-- nothing in the states that the run can be in.
theorem select_refused {valid : σ → Prop}
    (step : ∀ state call, valid state → valid (perform state call).state)
    (inert : ∀ state call fault, valid state → (perform state call).answer = .error fault →
      (perform state call).state = state ∧ (perform state call).events = [])
    {state : σ} (start : valid state) {calls : List κ} {keep : Nat → Bool}
    (refused : ∀ place record, (records perform state calls)[place]? = some record →
      keep place = false → ∃ fault, record.answer = .error fault) :
    records perform state (select keep calls) = select keep (records perform state calls) ∧
      journal perform state (select keep calls) = journal perform state calls ∧
      finish perform state (select keep calls) = finish perform state calls := by
  induction calls generalizing state keep with
  | nil => exact ⟨rfl, rfl, rfl⟩
  | cons call rest ih =>
    have others := fun place record found => refused (place + 1) record found
    have later := ih (step state call start) others
    cases stays : keep 0 with
    | true => simp [select, stays, records, journal, finish, later]
    | false =>
      obtain ⟨fault, failed⟩ := refused 0 _ rfl stays
      obtain ⟨same, silent⟩ := inert state call fault start failed
      rw [same] at later
      simp [select, stays, records, journal, finish, same, silent, later]

end Run
end MethodFrame
