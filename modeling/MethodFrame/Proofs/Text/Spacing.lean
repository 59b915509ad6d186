import MethodFrame.Text.Blank

-- The ways to lay out words in a text, and that splitting a text undoes exactly these.
namespace MethodFrame.Text

def Blanks (gap : List Char) : Prop := ∀ c ∈ gap, isBlank c = true

def Solid (word : List Char) : Prop := word ≠ [] ∧ ∀ c ∈ word, isBlank c = false

def Parted (text : List Char) : Prop := ∃ c rest, text = c :: rest ∧ isBlank c = true

-- A text made of the words in order: any blanks in front of each word, none at all
-- only in front of the first, and any blanks behind the last.
inductive Spaced : List (List Char) → List Char → Prop where
  | none {gap : List Char} (blank : Blanks gap) : Spaced [] gap
  | word {gap word text : List Char} {later : List (List Char)} (blank : Blanks gap)
      (parted : later ≠ [] → Parted text) (rest : Spaced later text) :
      Spaced (word :: later) (gap ++ word ++ text)

theorem Spaced.gap {words : List (List Char)} {gap text : List Char} (spaced : Spaced words text)
    (blank : Blanks gap) : Spaced words (gap ++ text) := by
  cases spaced with
  | none rest => exact .none (List.forall_mem_append.mpr ⟨blank, rest⟩)
  | word own parted rest =>
    rw [← List.append_assoc, ← List.append_assoc]
    exact .word (List.forall_mem_append.mpr ⟨blank, own⟩) parted rest

theorem close_spaced {gap text : List Char} {later : List (List Char)} (word : List Char)
    (blank : Blanks gap) (parted : later ≠ [] → Parted text) (rest : Spaced later text) :
    Spaced (close word later) (gap ++ word ++ text) := by
  unfold close
  split
  · rename_i empty
    subst empty
    rw [List.append_nil]
    exact rest.gap blank
  · exact .word blank parted rest

-- The complete words of a cut lay out what is behind its open word.
theorem cut_spaced (text : List Char) : ∃ rest, text = (cut text).1 ++ rest ∧
    Spaced (cut text).2 rest ∧ ((cut text).2 ≠ [] → Parted rest) := by
  induction text with
  | nil => exact ⟨[], rfl, .none (fun c member => by cases member), fun filled => absurd rfl filled⟩
  | cons c text ih =>
    obtain ⟨rest, parts, spaced, parted⟩ := ih
    cases blank : isBlank c with
    | false => exact ⟨rest, by simp [cut, blank, ← parts], by simpa [cut, blank] using spaced,
        by simpa [cut, blank] using parted⟩
    | true =>
      have gap : Blanks [c] := by simp [Blanks, blank]
      have closed := close_spaced (cut text).1 gap parted spaced
      rw [List.append_assoc, ← parts] at closed
      refine ⟨c :: text, ?_, ?_, fun _ => ⟨c, text, rfl, blank⟩⟩
      · simp [cut, blank]
      · simpa [cut, blank] using closed

theorem runs_spaced (text : List Char) : Spaced (runs text) text := by
  obtain ⟨rest, parts, spaced, parted⟩ := cut_spaced text
  have gap : Blanks [] := fun c member => by cases member
  have closed := close_spaced (cut text).1 gap parted spaced
  rw [List.nil_append, ← parts] at closed
  exact closed

theorem close_solid {word : List Char} {later : List (List Char)}
    (letters : ∀ c ∈ word, isBlank c = false) (solid : ∀ part ∈ later, Solid part) :
    ∀ part ∈ close word later, Solid part := by
  unfold close
  split
  · exact solid
  · rename_i filled
    exact List.forall_mem_cons.mpr ⟨⟨filled, letters⟩, solid⟩

theorem cut_solid (text : List Char) : (∀ c ∈ (cut text).1, isBlank c = false) ∧
    ∀ part ∈ (cut text).2, Solid part := by
  induction text with
  | nil => simp [cut]
  | cons c text ih =>
    obtain ⟨letters, solid⟩ := ih
    cases blank : isBlank c with
    | false =>
      simp only [cut, blank, Bool.false_eq_true, if_false]
      exact ⟨List.forall_mem_cons.mpr ⟨blank, letters⟩, solid⟩
    | true =>
      have closed := close_solid letters solid
      simpa [cut, blank] using closed

theorem runs_solid (text : List Char) : ∀ word ∈ runs text, Solid word :=
  close_solid (cut_solid text).1 (cut_solid text).2

theorem runs_gap {gap : List Char} (blank : Blanks gap) (text : List Char) :
    runs (gap ++ text) = runs text := by
  induction gap with
  | nil => rfl
  | cons c rest ih =>
    obtain ⟨first, others⟩ := List.forall_mem_cons.mp blank
    rw [List.cons_append, runs_blank first]
    exact ih others

theorem runs_parted {word text : List Char} (solid : Solid word) (parted : text = [] ∨ Parted text) :
    runs (word ++ text) = word :: runs text := by
  rcases parted with rfl | ⟨c, rest, rfl, blank⟩
  · rw [List.append_nil]
    exact runs_single solid.1 solid.2
  · rw [runs_word solid.1 solid.2 blank, runs_blank blank]

theorem runs_of_spaced {words : List (List Char)} {text : List Char}
    (spaced : Spaced words text) (solid : ∀ word ∈ words, Solid word) : runs text = words := by
  induction spaced with
  | none blank =>
    have gone := runs_gap blank []
    rwa [List.append_nil] at gone
  | @word gap word text later blank parted rest ih =>
    obtain ⟨first, others⟩ := List.forall_mem_cons.mp solid
    have apart : text = [] ∨ Parted text := by
      cases rest with
      | none gap =>
        cases text with
        | nil => exact .inl rfl
        | cons c text => exact .inr ⟨c, text, rfl, gap c List.mem_cons_self⟩
      | word own next rest => exact .inr (parted (List.cons_ne_nil _ _))
    rw [List.append_assoc, runs_gap blank, runs_parted first apart, ih others]

theorem runs_exact {words : List (List Char)} {text : List Char}
    (solid : ∀ word ∈ words, Solid word) : runs text = words ↔ Spaced words text := by
  constructor
  · intro same
    rw [← same]
    exact runs_spaced text
  · intro spaced
    exact runs_of_spaced spaced solid

def Written (parts : List String) (text : String) : Prop :=
  Spaced (parts.map String.toList) text.toList

theorem words_solid (text : String) : ∀ word ∈ words text, Solid word.toList := by
  intro word member
  obtain ⟨letters, found, same⟩ := List.mem_map.mp member
  rw [← same, String.toList_ofList]
  exact runs_solid _ letters found

theorem words_letters (text : String) : (words text).map String.toList = runs text.toList := by
  simp [words, Function.comp_def]

theorem words_exact {parts : List String} {text : String}
    (solid : ∀ word ∈ parts, Solid word.toList) : words text = parts ↔ Written parts text := by
  have letters : ∀ word ∈ parts.map String.toList, Solid word :=
    List.forall_mem_map.mpr solid
  unfold Written
  rw [← runs_exact letters, ← words_letters]
  exact (List.map_inj_right (fun _ _ same => String.toList_inj.mp same)).symm

theorem joined_written (parts : List String) : Written parts (joined parts) := by
  unfold Written joined
  rw [String.toList_intercalate]
  induction parts with
  | nil => exact .none (List.forall_mem_nil _)
  | cons word later ih =>
    cases later with
    | nil =>
      have blank : Blanks [] := List.forall_mem_nil _
      have last := @Spaced.word [] word.toList [] [] blank (fun filled => absurd rfl filled)
        (.none blank)
      simpa using last
    | cons next later =>
      have blank : Blanks [' '] := by simp [Blanks, isBlank]
      have parted : Parted (' ' :: [' '].intercalate ((next :: later).map String.toList)) :=
        ⟨' ', _, rfl, by decide⟩
      have spaced := @Spaced.word [] word.toList _ _ (List.forall_mem_nil _) (fun _ => parted)
        (ih.gap blank)
      simpa using spaced

theorem Spaced.letter {words : List (List Char)} {text : List Char} (spaced : Spaced words text)
    {c : Char} (member : c ∈ text) : isBlank c = true ∨ ∃ word ∈ words, c ∈ word := by
  induction spaced with
  | none blank => exact .inl (blank c member)
  | @word gap word text later blank parted rest ih =>
    rcases List.mem_append.mp member with front | behind
    · rcases List.mem_append.mp front with between | here
      · exact .inl (blank c between)
      · exact .inr ⟨word, List.mem_cons_self, here⟩
    · rcases ih behind with between | ⟨other, found, there⟩
      · exact .inl between
      · exact .inr ⟨other, List.mem_cons_of_mem _ found, there⟩

theorem Spaced.covers {words : List (List Char)} {text : List Char} (spaced : Spaced words text)
    {word : List Char} (part : word ∈ words) {c : Char} (member : c ∈ word) : c ∈ text := by
  induction spaced with
  | none blank => cases part
  | word blank parted rest ih =>
    rcases List.mem_cons.mp part with rfl | behind
    · exact List.mem_append_left _ (List.mem_append_right _ member)
    · exact List.mem_append_right _ (ih behind)

theorem Written.letter {parts : List String} {text : String} (written : Written parts text)
    {c : Char} (member : c ∈ text.toList) :
    isBlank c = true ∨ ∃ word ∈ parts, c ∈ word.toList := by
  rcases Spaced.letter written member with blank | ⟨letters, found, here⟩
  · exact .inl blank
  · obtain ⟨word, part, rfl⟩ := List.mem_map.mp found
    exact .inr ⟨word, part, here⟩

theorem words_covered {text word : String} (part : word ∈ words text) {c : Char}
    (member : c ∈ word.toList) : c ∈ text.toList := by
  have written : Written (words text) text := (words_exact (words_solid text)).mp rfl
  exact Spaced.covers written (List.mem_map_of_mem part) member

theorem words_joined {parts : List String} (solid : ∀ word ∈ parts, Solid word.toList) :
    words (joined parts) = parts :=
  (words_exact solid).mpr (joined_written parts)

end MethodFrame.Text
