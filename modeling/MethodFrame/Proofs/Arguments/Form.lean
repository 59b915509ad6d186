import Mathlib.Data.List.TakeWhile
import MethodFrame.Proofs.Arguments.Parser
import MethodFrame.Scanner

-- Single arguments: what the form of an argument says about its text, and the texts of each form.
namespace MethodFrame.Argument
open Arguments

def spelling : Argument → List Char
  | .separator => ['-', '-']
  | .long name none => '-' :: '-' :: name.toList
  | .long name (some value) => '-' :: '-' :: name.toList ++ '=' :: value.toList
  | .cluster letters => '-' :: letters
  | .plain text => text.toList

theorem spelling_ofLong (body : List Char) : (ofLong body).spelling = '-' :: '-' :: body := by
  have parts := @List.takeWhile_append_dropWhile _ (· ≠ '=') body
  have mark := List.head?_dropWhile_not (· ≠ '=') body
  unfold ofLong
  cases rest : body.dropWhile (· ≠ '=') with
  | nil =>
    rw [rest, List.append_nil] at parts
    simp only [spelling, String.toList_ofList, parts]
  | cons sign value =>
    rw [rest] at parts mark
    have equals : sign = '=' := by simpa using mark
    rw [equals] at parts
    simp only [spelling, String.toList_ofList, List.cons_append, parts]

theorem spelling_ofString (text : String) : (ofString text).spelling = text.toList := by
  unfold ofString
  split
  · rename_i shape
    rw [shape, spelling]
  · rename_i body _ shape
    rw [shape, spelling_ofLong]
  · rename_i letter letters _ _ shape
    rw [shape, spelling]
  · rw [spelling]

theorem text_of_form {text : String} {argument : Argument} (form : ofString text = argument) :
    text = String.ofList argument.spelling := by
  rw [← form, spelling_ofString, String.ofList_toList]

theorem text_long {text name : String} (form : ofString text = .long name none) :
    text = "--" ++ name := by
  rw [text_of_form form, ← String.toList_inj]
  simp [spelling]

theorem text_assigned {text name value : String} (form : ofString text = .long name (some value)) :
    text = assignment name value := by
  rw [text_of_form form, ← String.toList_inj]
  simp [spelling, assignment]

theorem text_plain {text body : String} (form : ofString text = .plain body) : text = body := by
  rw [text_of_form form, spelling, String.ofList_toList]

theorem separator_exact {text : String} : ofString text = .separator ↔ text = "--" := by
  constructor
  · exact text_of_form
  · rintro rfl
    rfl

theorem ofLong_long (body : List Char) :
    ∃ name value, ofLong body = .long name value ∧ '=' ∉ name.toList := by
  have letters : '=' ∉ body.takeWhile (· ≠ '=') := fun member =>
    absurd (List.all_eq_true.mp List.all_takeWhile _ member) (by decide)
  unfold ofLong
  split
  · exact ⟨_, _, rfl, by rwa [String.toList_ofList]⟩
  · exact ⟨_, _, rfl, by rwa [String.toList_ofList]⟩

theorem long_bare {text name : String} {value : Option String}
    (form : ofString text = .long name value) : '=' ∉ name.toList := by
  unfold ofString at form
  split at form
  · cases form
  · rename_i body _ _
    obtain ⟨_, _, long, bare⟩ := ofLong_long body
    cases long.symm.trans form
    exact bare
  · cases form
  · cases form

theorem long_some {text name : String} (form : ofString text = .long name none) : name ≠ "" := by
  rintro rfl
  rw [text_long form] at form
  cases form

theorem cluster_letters {text : String} {letters : List Char}
    (form : ofString text = .cluster letters) : letters ≠ [] ∧ letters.head? ≠ some '-' := by
  unfold ofString at form
  split at form
  · cases form
  · rename_i body _ _
    obtain ⟨_, _, long, _⟩ := ofLong_long body
    cases long.symm.trans form
  · rename_i long shape
    cases form
    exact ⟨List.cons_ne_nil _ _, fun dash => long (Option.some.inj dash)⟩
  · cases form

theorem plain_exact {text : String} : ofString text = .plain text ↔ IsValue text := by
  constructor
  · intro form
    unfold ofString at form
    split at form
    · cases form
    · rename_i body _ _
      obtain ⟨_, _, long, _⟩ := ofLong_long body
      cases long.symm.trans form
    · cases form
    · rename_i long short shape
      unfold IsValue
      cases letters : text.toList with
      | nil => exact .inr (by simp)
      | cons first rest =>
        by_cases dash : first = '-'
        · subst dash
          cases rest with
          | nil =>
            rw [← @String.ofList_toList text, letters]
            exact .inl rfl
          | cons second more => exact absurd letters (shape second more)
        · exact .inr (by simpa using dash)
  · rintro (rfl | letter)
    · rfl
    · unfold ofString
      split
      · rename_i shape
        simp [shape] at letter
      · rename_i shape
        simp [shape] at letter
      · rename_i shape
        simp [shape] at letter
      · rfl

theorem ofString_dashes {text : String} {body : List Char} (some_letter : body ≠ [])
    (parts : text.toList = '-' :: '-' :: body) : ofString text = ofLong body := by
  cases body with
  | nil => exact absurd rfl some_letter
  | cons first rest => simp only [ofString, parts]

theorem bare_letters {name : List Char} (bare : '=' ∉ name) :
    ∀ letter ∈ name, decide (letter ≠ '=') = true := fun _ member =>
  decide_eq_true (fun same => bare (same ▸ member))

theorem ofString_named {name : String} (bare : '=' ∉ name.toList) (some_letter : name ≠ "") :
    ofString ("--" ++ name) = .long name none := by
  have taken := List.takeWhile_eq_self_iff.mpr (bare_letters bare)
  have dropped := List.dropWhile_eq_nil_iff.mpr (bare_letters bare)
  rw [@ofString_dashes _ name.toList (mt String.toList_eq_nil_iff.mp some_letter) (by simp)]
  simp only [ofLong, taken, dropped, String.ofList_toList]

theorem ofString_assignment {name : String} (bare : '=' ∉ name.toList) (value : String) :
    ofString (assignment name value) = .long name (some value) := by
  have taken : (name.toList ++ '=' :: value.toList).takeWhile (· ≠ '=') = name.toList := by
    rw [List.takeWhile_append_of_pos (bare_letters bare)]
    simp
  have dropped : (name.toList ++ '=' :: value.toList).dropWhile (· ≠ '=') = '=' :: value.toList := by
    rw [List.dropWhile_append_of_pos (bare_letters bare)]
    rfl
  rw [@ofString_dashes _ (name.toList ++ '=' :: value.toList) (by simp) (by simp [assignment])]
  simp only [ofLong, taken, dropped, String.ofList_toList]

theorem ofString_cluster {letters : List Char} (some_letter : letters ≠ [])
    (dashless : letters.head? ≠ some '-') :
    ofString (String.ofList ('-' :: letters)) = .cluster letters := by
  cases letters with
  | nil => exact absurd rfl some_letter
  | cons letter others =>
    have other : letter ≠ '-' := fun same => dashless (congrArg some same)
    simp [ofString, other]

end MethodFrame.Argument
