import MethodFrame.Proofs.Options.Grammar

-- The order of the arguments does not count, and an option more or less changes that option only.
namespace MethodFrame.Options
open Arguments

theorem isOn_verbose (options : Options) (verbose : Bool) (table : Table) :
    isOn { options with verbose := verbose } (.table table) = options.isOn (.table table) := by
  cases table <;> rfl

section
variable {parser : Parser} (regular : Regular parser declared) {options other : Options}
  {arguments others before after : List String} {text : String}
include regular

theorem read_quieter (spelling : (Item.flag .verbose).Spelling [text])
    (accepted : read parser (before ++ text :: after) = .ok options) :
    read parser (before ++ after) = .ok { options with verbose := false } := by
  obtain ⟨items, written⟩ := read_written regular accepted
  obtain ⟨once, meaning⟩ := (read_meaning regular written).mp accepted
  obtain ⟨first, second, rfl, front, back⟩ := written.role.spelled spelling
  obtain ⟨unseen, once⟩ := once_middle.mp once
  have kept : ∀ item, item ≠ .flag .verbose →
      (item ∈ first ++ .flag .verbose :: second ↔ item ∈ first ++ second) := by
    intro item others
    simp [others]
  refine (read_meaning regular (Written.behind front back)).mpr ⟨once, fun flag => ?_, fun text => ?_⟩
  · cases flag with
    | table table =>
      rw [isOn_verbose, ← kept _ (by simp), meaning.flags]
    | verbose =>
      have absent : .flag .verbose ∉ first ++ second := fun given =>
        unseen (List.mem_map_of_mem given)
      simpa [isOn] using absent
  · rw [← kept _ (by simp), ← meaning.check]

end

end MethodFrame.Options
