import MethodFrame.Proofs.Options.Item

-- What a single argument is in the list that it stands in, in whatever order the arguments stand.
namespace MethodFrame
open Arguments

variable {item other : Item} {items : List Item} {before after arguments : List String}
  {text : String}

-- A whole item, one of the two arguments of a check, or the separator.
inductive Role : List Item → List String → String → List String → Prop where
  | whole {first second : List Item} {item : Item} {before after : List String} {text : String}
      (front : Listed first before) (spelling : item.Spelling [text])
      (back : Written second after) : Role (first ++ item :: second) before text after
  | opener {first second : List Item} {before after : List String} {text : String}
      (front : Listed first before) (value : IsValue text)
      (back : Written second after) :
      Role (first ++ .check text :: second) before "--check" (text :: after)
  | value {first second : List Item} {before after : List String} {text : String}
      (front : Listed first before) (value : IsValue text)
      (back : Written second after) :
      Role (first ++ .check text :: second) (before ++ ["--check"]) text after
  | closing {items : List Item} {before : List String} (front : Listed items before) :
      Role items before "--" []

theorem Role.behind {first : List Item} {front : List String} (listed : Listed first front)
    (role : Role items before text after) : Role (first ++ items) (front ++ before) text after := by
  cases role with
  | whole one spelling back =>
    rw [← List.append_assoc]
    exact .whole (listed.append one) spelling back
  | opener one value back =>
    rw [← List.append_assoc]
    exact .opener (listed.append one) value back
  | value one value back =>
    rw [← List.append_assoc, ← List.append_assoc]
    exact .value (listed.append one) value back
  | closing one => exact .closing (listed.append one)

theorem Item.Spelling.role (spelling : item.Spelling (before ++ text :: after)) {rest : List String}
    (back : Written items rest) : Role (item :: items) before text (after ++ rest) := by
  have single : ∀ {only : String}, item.Spelling [only] → [only] = before ++ text :: after →
      Role (item :: items) before text (after ++ rest) := by
    intro only spelling parts
    cases before with
    | nil =>
      cases parts
      exact .whole .nil spelling back
    | cons first others => simp at parts
  generalize parts : before ++ text :: after = arguments at spelling
  cases spelling with
  | long flag => exact single (.long flag) parts.symm
  | short => exact single .short parts.symm
  | joined text => exact single (.joined text) parts.symm
  | apart value =>
    match before, parts with
    | [], parts =>
      cases parts
      exact .opener .nil value back
    | [_], parts =>
      cases parts
      exact .value .nil value back
    | _ :: _ :: _, parts => simp at parts

theorem Written.role (written : Written items (before ++ text :: after)) :
    Role items before text after := by
  generalize whole : before ++ text :: after = arguments at written
  induction written generalizing before with
  | nil => simp at whole
  | closed =>
    match before, whole with
    | [], whole =>
      cases whole
      exact .closing .nil
    | [_], whole => simp at whole
  | @cons item items arguments rest spelling written ih =>
    have behind : ∀ others, before = arguments ++ others → rest = others ++ text :: after →
        Role (item :: items) before text after := by
      rintro others rfl back
      have role := (ih back.symm).behind (.cons spelling .nil)
      rwa [List.append_nil] at role
    obtain ⟨others, front, back⟩ | ⟨others, front, back⟩ := List.append_eq_append_iff.mp whole
    · cases others with
      | nil =>
        rw [List.append_nil] at front
        exact behind [] (front ▸ (List.append_nil _).symm) back.symm
      | cons first others =>
        cases back
        rw [front] at spelling
        exact spelling.role written
    · exact behind others front back

theorem Role.opened (role : Role items before "--check" (text :: after)) :
    IsValue text ∧ ∃ first second, items = first ++ .check text :: second ∧
      Listed first before ∧ Written second after := by
  generalize word : "--check" = lone at role
  generalize rest : text :: after = behind at role
  cases role with
  | whole front spelling back => exact absurd word.symm spelling.not_opened
  | opener front value back =>
    cases rest
    exact ⟨value, _, _, rfl, front, back⟩
  | value front value back => exact absurd (word ▸ value) (by decide)
  | closing front => cases rest

theorem Role.spelled (role : Role items before text after) (spelling : item.Spelling [text]) :
    ∃ first second, items = first ++ item :: second ∧ Listed first before ∧
      Written second after := by
  cases role with
  | whole front again back => exact ⟨_, _, by rw [again.unique spelling], front, back⟩
  | opener front value back => exact absurd rfl spelling.not_opened
  | value front value back => exact absurd value spelling.not_value
  | closing front => exact absurd rfl spelling.not_separator

inductive Item.Mark : Item → String → Prop where
  | whole {item : Item} {text : String} (spelling : item.Spelling [text]) : Mark item text
  | value {text : String} (value : IsValue text) : Mark (.check text) text

theorem Item.Mark.unique (one : item.Mark text) (two : other.Mark text) : item = other := by
  cases one with
  | whole spelling => cases two with
    | whole again => exact spelling.unique again
    | value value => exact absurd value spelling.not_value
  | value value => cases two with
    | whole spelling => exact absurd value spelling.not_value
    | value again => rfl

theorem Item.Mark.not_opened (mark : item.Mark text) : text ≠ "--check" := by
  cases mark with
  | whole spelling => exact spelling.not_opened
  | value value => exact fun same => absurd (same ▸ value) (by decide)

theorem Item.Mark.not_separator (mark : item.Mark text) : text ≠ "--" := by
  cases mark with
  | whole spelling => exact spelling.not_separator
  | value value => exact fun same => absurd (same ▸ value) (by decide)

theorem Item.Spelling.marked (spelling : item.Spelling arguments) :
    ∃ text ∈ arguments, item.Mark text := by
  cases spelling with
  | long flag => exact ⟨_, List.mem_cons_self, .whole (.long flag)⟩
  | short => exact ⟨_, List.mem_cons_self, .whole .short⟩
  | joined text => exact ⟨_, List.mem_cons_self, .whole (.joined text)⟩
  | apart value => exact ⟨_, List.mem_cons_of_mem _ List.mem_cons_self, .value value⟩

end MethodFrame
