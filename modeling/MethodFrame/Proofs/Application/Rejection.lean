import MethodFrame.Proofs.Application.Grammar

-- Why a text is no application: which of its faults is reported, and in which words.
namespace MethodFrame

theorem Operator.ofSymbol_none {word : String} :
    ofSymbol? word = .none ↔ ∀ operator : Operator, word ≠ operator.symbol := by
  constructor
  · rintro unread operator rfl
    rw [ofSymbol_exact.mpr rfl] at unread
    cases unread
  · intro other
    refine List.find?_eq_none.mpr (fun operator _ => ?_)
    simpa [eq_comm] using other operator

theorem OperandType.read_unnamed {text : String} (other : ∀ type : OperandType, text ≠ type.name) :
    OperandType.read text = .error (.unknownType text) := by
  unfold OperandType.read
  split
  · rename_i type found
    exact absurd (ofName_exact.mp found).symm (other type)
  · rfl

namespace Application

def Plain (parts : List String) : Prop :=
  ∀ word ∈ parts, ∀ operator : Operator, word ≠ operator.symbol

def Named (parts : List String) : Prop := ∃ type : OperandType, Text.joined parts = type.name

-- The words around the first operator word.
structure Divides (parts left : List String) (operator : Operator) (right : List String) :
    Prop where
  whole : parts = left ++ operator.symbol :: right
  plain : Plain left

-- A fault on the left hides one on the right.
inductive Rejects (text : String) : Fault → Prop where
  | noOperator (plain : Plain (Text.words text)) : Rejects text (.unknownOperator text)
  | left {left right : List String} {operator : Operator}
      (divided : Divides (Text.words text) left operator right) (filled : left ≠ [])
      (unnamed : ¬Named left) : Rejects text (.unknownType (Text.joined left))
  | right {left right : List String} {operator : Operator}
      (divided : Divides (Text.words text) left operator right) (named : left = [] ∨ Named left)
      (unnamed : ¬Named right) : Rejects text (.unknownType (Text.joined right))

theorem split_none {parts : List String} : split? parts = none ↔ Plain parts := by
  induction parts with
  | nil => simp [split?, Plain]
  | cons word rest ih =>
    simp only [Plain, List.forall_mem_cons, ← Operator.ofSymbol_none] at ih ⊢
    rw [split?, ← ih]
    cases Operator.ofSymbol? word with
    | some operator => simp
    | none => cases split? rest <;> simp

theorem split_plain {parts left right : List String} {operator : Operator}
    (found : split? parts = some (left, operator, right)) : Plain left := by
  induction parts generalizing left with
  | nil => cases found
  | cons word rest ih =>
    unfold split? at found
    split at found
    · cases found
      exact List.forall_mem_nil _
    · rename_i unread
      split at found
      · rename_i later
        cases found
        exact List.forall_mem_cons.mpr ⟨Operator.ofSymbol_none.mp unread, ih later⟩
      · cases found

theorem split_divides {parts left right : List String} {operator : Operator} :
    split? parts = some (left, operator, right) ↔ Divides parts left operator right := by
  constructor
  · intro found
    exact ⟨split_parts found, split_plain found⟩
  · rintro ⟨rfl, plain⟩
    exact split_append left right operator
      (fun word member => Operator.ofSymbol_none.mpr (plain word member))

theorem Named.read {parts : List String} (named : Named parts) :
    ∃ type, OperandType.read (Text.joined parts) = .ok type := by
  obtain ⟨type, name⟩ := named
  exact ⟨type, OperandType.read_exact.mpr name⟩

theorem unnamed_read {parts : List String} (unnamed : ¬Named parts) :
    OperandType.read (Text.joined parts) = .error (.unknownType (Text.joined parts)) :=
  OperandType.read_unnamed (fun type name => unnamed ⟨type, name⟩)

theorem unnamed_nil : ¬Named [] := by
  rintro ⟨type, name⟩
  cases type <;> simp [Text.joined, OperandType.name] at name

theorem unnamed_operator {parts : List String} (solid : ∀ word ∈ parts, Text.Solid word.toList)
    {operator : Operator} (second : operator.symbol ∈ parts) : ¬Named parts := by
  rintro ⟨type, name⟩
  rw [(joined_exact solid).mp name] at second
  have unread := type.words_plain _ second
  rw [Operator.ofSymbol_exact.mpr rfl] at unread
  cases unread

section
variable {text : String} {left right : List String} {operator : Operator}

theorem read_plain (plain : Plain (Text.words text)) :
    read text = .error (.unknownOperator text) := by
  simp [read, split_none.mpr plain]

theorem read_left (divided : Divides (Text.words text) left operator right) (filled : left ≠ [])
    (unnamed : ¬Named left) : read text = .error (.unknownType (Text.joined left)) := by
  simp [read, split_divides.mpr divided, filled, unnamed_read unnamed]

theorem read_right (divided : Divides (Text.words text) left operator right)
    (named : left = [] ∨ Named left) (unnamed : ¬Named right) :
    read text = .error (.unknownType (Text.joined right)) := by
  by_cases empty : left = []
  · simp [read, split_divides.mpr divided, empty, unnamed_read unnamed]
  · obtain ⟨type, typed⟩ := (named.resolve_left empty).read
    simp [read, split_divides.mpr divided, empty, typed, unnamed_read unnamed]

theorem read_accepted (divided : Divides (Text.words text) left operator right)
    (named : left = [] ∨ Named left) (fine : Named right) :
    ∃ application, read text = .ok application := by
  obtain ⟨rightType, rightTyped⟩ := fine.read
  by_cases empty : left = []
  · simp [read, split_divides.mpr divided, empty, rightTyped]
  · obtain ⟨leftType, leftTyped⟩ := (named.resolve_left empty).read
    simp [read, split_divides.mpr divided, empty, leftTyped, rightTyped]

end

theorem plain_or_divides (parts : List String) :
    Plain parts ∨ ∃ left operator right, Divides parts left operator right := by
  cases found : split? parts with
  | none => exact .inl (split_none.mp found)
  | some divided =>
    obtain ⟨left, operator, right⟩ := divided
    exact .inr ⟨left, operator, right, split_divides.mp found⟩

theorem read_rejects {text : String} {fault : Fault} :
    read text = .error fault ↔ Rejects text fault := by
  constructor
  · intro refused
    rcases plain_or_divides (Text.words text) with plain | ⟨left, operator, right, divided⟩
    · cases (read_plain plain).symm.trans refused
      exact .noOperator plain
    by_cases named : left = [] ∨ Named left
    · by_cases fine : Named right
      · obtain ⟨application, accepted⟩ := read_accepted divided named fine
        cases accepted.symm.trans refused
      · cases (read_right divided named fine).symm.trans refused
        exact .right divided named fine
    · obtain ⟨filled, unnamed⟩ := not_or.mp named
      cases (read_left divided filled unnamed).symm.trans refused
      exact .left divided filled unnamed
  · intro rejected
    cases rejected with
    | noOperator plain => exact read_plain plain
    | left divided filled unnamed => exact read_left divided filled unnamed
    | right divided named unnamed => exact read_right divided named unnamed

theorem check_refused {text : String} {fault : Fault} (refused : read text = .error fault) :
    check text = .error fault := by
  simp [check, refused]

theorem read_words {text other : String} (same : Text.words other = Text.words text)
    (marked : ¬Plain (Text.words text)) : read other = read text := by
  obtain ⟨left, operator, right, divided⟩ :=
    (plain_or_divides (Text.words text)).resolve_left marked
  simp [read, same, split_divides.mpr divided]

theorem read_refusals (text : String) :
    (∀ fault, read text = .error fault ↔ Rejects text fault) ∧
    (∀ quoted, read text = .error (.unknownOperator quoted) ↔
      quoted = text ∧ Plain (Text.words text)) ∧
    (∀ left operator right, Divides (Text.words text) left operator right →
      (left ≠ [] → ¬Named left → read text = .error (.unknownType (Text.joined left))) ∧
      (left = [] ∨ Named left →
        (¬Named right → read text = .error (.unknownType (Text.joined right))) ∧
        (right = [] → read text = .error (.unknownType "")) ∧
        ∀ second : Operator, second.symbol ∈ right →
          read text = .error (.unknownType (Text.joined right)))) ∧
    (∀ fault, read text = .error fault → check text = .error fault) ∧
    ∀ other, Text.words other = Text.words text →
      (Plain (Text.words text) →
        read text = .error (.unknownOperator text) ∧ check text = .error (.unknownOperator text) ∧
        read other = .error (.unknownOperator other) ∧
        check other = .error (.unknownOperator other)) ∧
      (¬Plain (Text.words text) → read other = read text ∧ check other = check text) := by
  refine ⟨fun fault => read_rejects, fun quoted => ⟨fun refused => ?_, ?_⟩,
    fun left operator right divided => ⟨read_left divided, fun named => ⟨read_right divided named,
      ?_, fun second behind => ?_⟩⟩, fun fault => check_refused,
    fun other same => ⟨fun plain => ?_, fun marked => ?_⟩⟩
  · cases read_rejects.mp refused with
    | noOperator plain => exact ⟨rfl, plain⟩
  · rintro ⟨rfl, plain⟩
    exact read_plain plain
  · rintro rfl
    exact read_right divided named unnamed_nil
  · have solid := Text.words_solid text
    rw [divided.whole] at solid
    have others := (List.forall_mem_cons.mp (List.forall_mem_append.mp solid).2).2
    exact read_right divided named (unnamed_operator others behind)
  · have first := read_plain plain
    have second := read_plain (same ▸ plain)
    exact ⟨first, check_refused first, second, check_refused second⟩
  · have read := read_words same marked
    exact ⟨read, by simp [check, read]⟩

end Application
end MethodFrame
