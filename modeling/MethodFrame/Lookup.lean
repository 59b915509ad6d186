-- Entries that are looked up by a key which no two of them share.
namespace MethodFrame

variable {α κ : Type} [DecidableEq κ] {all : List α} {key : α → κ} {wanted : κ} {entry : α}

theorem key_of_find (found : all.find? (fun other => key other = wanted) = some entry) :
    entry ∈ all ∧ key entry = wanted := by
  have hit := List.find?_some found
  exact ⟨List.mem_of_find?_eq_some found, of_decide_eq_true hit⟩

theorem find_key (member : entry ∈ all)
    (unique : ∀ other ∈ all, key other = key entry → other = entry) :
    all.find? (fun other => key other = wanted) = some entry ↔ key entry = wanted := by
  constructor
  · exact fun found => (key_of_find found).2
  · rintro rfl
    cases found : all.find? (fun other => key other = key entry) with
    | none => exact absurd (decide_eq_true rfl) (List.find?_eq_none.mp found entry member)
    | some other =>
      obtain ⟨inside, same⟩ := key_of_find found
      rw [unique other inside same]

end MethodFrame
