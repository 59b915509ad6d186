import MethodFrame.Application
import MethodFrame.Proofs.Text.Spacing

-- The texts that read as an application are those of a grammar of words, and each has one reading.
namespace MethodFrame

theorem OperandType.joined_words (type : OperandType) :
    Text.joined (Text.words type.name) = type.name := by
  cases type <;> decide

example : Text.words OperandType.strongInt.name = ["strong", "int"] := by decide

theorem OperandType.words_plain (type : OperandType) :
    ∀ word ∈ Text.words type.name, Operator.ofSymbol? word = none := by
  cases type <;> decide

theorem Operator.symbol_solid {operator : Operator} (present : operator ≠ .none) :
    Text.Solid operator.symbol.toList := by
  cases operator with
  | none => exact absurd rfl present
  | _ => simp [Text.Solid, symbol, Text.isBlank]

namespace Application

inductive Phrase : Application → List String → Prop where
  | before {operator : Operator} {operand : OperandType} (present : operator ≠ .none) :
      Phrase ⟨operator, [operand]⟩ (operator.symbol :: Text.words operand.name)
  | between {operator : Operator} {left right : OperandType} (present : operator ≠ .none) :
      Phrase ⟨operator, [left, right]⟩
        (Text.words left.name ++ operator.symbol :: Text.words right.name)

theorem Phrase.present {application : Application} {parts : List String}
    (phrase : Phrase application parts) : application.operator ≠ .none := by
  cases phrase with
  | before present => exact present
  | between present => exact present

theorem Phrase.solid {application : Application} {parts : List String}
    (phrase : Phrase application parts) : ∀ word ∈ parts, Text.Solid word.toList := by
  intro word member
  cases phrase with
  | before present =>
    rcases List.mem_cons.mp member with rfl | name
    · exact Operator.symbol_solid present
    · exact Text.words_solid _ word name
  | between present =>
    rcases List.mem_append.mp member with name | member
    · exact Text.words_solid _ word name
    · rcases List.mem_cons.mp member with rfl | name
      · exact Operator.symbol_solid present
      · exact Text.words_solid _ word name

theorem split_append (left right : List String) (operator : Operator)
    (plain : ∀ word ∈ left, Operator.ofSymbol? word = none) :
    split? (left ++ operator.symbol :: right) = some (left, operator, right) := by
  induction left with
  | nil => simp [split?, Operator.ofSymbol_exact.mpr rfl]
  | cons word left ih =>
    obtain ⟨first, others⟩ := List.forall_mem_cons.mp plain
    simp [split?, first, ih others]

theorem split_parts {parts left right : List String} {operator : Operator}
    (found : split? parts = some (left, operator, right)) :
    parts = left ++ operator.symbol :: right := by
  induction parts generalizing left with
  | nil => cases found
  | cons word rest ih =>
    unfold split? at found
    split at found
    · rename_i own symbol
      cases found
      rw [← Operator.ofSymbol_exact.mp symbol]
      rfl
    · split at found
      · rename_i later
        cases found
        rw [ih later]
        rfl
      · cases found

theorem joined_exact {parts : List String} {type : OperandType}
    (solid : ∀ word ∈ parts, Text.Solid word.toList) :
    Text.joined parts = type.name ↔ parts = Text.words type.name := by
  constructor
  · intro same
    rw [← same, Text.words_joined solid]
  · intro same
    rw [same, type.joined_words]

theorem read_phrase {application : Application} {parts : List String} {text : String}
    (phrase : Phrase application parts) (written : Text.Written parts text) :
    read text = .ok application := by
  have words := (Text.words_exact phrase.solid).mpr written
  unfold read
  rw [words]
  cases phrase with
  | @before operator operand present =>
    have parsed := split_append [] (Text.words operand.name) operator (List.forall_mem_nil _)
    rw [List.nil_append] at parsed
    simp [parsed, operand.joined_words, OperandType.read_exact.mpr rfl]
  | @between operator left right present =>
    have parsed := split_append _ (Text.words right.name) operator left.words_plain
    have filled : Text.words left.name ≠ [] := by cases left <;> decide
    simp [parsed, filled, OperandType.joined_words, OperandType.read_exact.mpr rfl]

theorem phrase_read {application : Application} {text : String}
    (accepted : read text = .ok application) : Phrase application (Text.words text) := by
  have solid := Text.words_solid text
  unfold read at accepted
  split at accepted
  · cases accepted
  · rename_i left operator right found
    have parts := split_parts found
    have present : operator ≠ .none := by
      intro absent
      have word := (solid operator.symbol (by simp [parts])).1
      rw [absent] at word
      exact word rfl
    rw [parts] at solid ⊢
    obtain ⟨leftSolid, others⟩ := List.forall_mem_append.mp solid
    have rightSolid := (List.forall_mem_cons.mp others).2
    by_cases empty : left = []
    · rw [if_pos empty] at accepted
      split at accepted
      · cases accepted
      · rename_i operand named
        cases accepted
        have name := (joined_exact rightSolid).mp (OperandType.read_exact.mp named)
        rw [empty, name]
        exact .before present
    · rw [if_neg empty] at accepted
      split at accepted
      · cases accepted
      · rename_i leftType leftNamed
        split at accepted
        · cases accepted
        · rename_i rightType rightNamed
          cases accepted
          have leftName := (joined_exact leftSolid).mp (OperandType.read_exact.mp leftNamed)
          have rightName := (joined_exact rightSolid).mp (OperandType.read_exact.mp rightNamed)
          rw [leftName, rightName]
          exact .between present

theorem read_exact {application : Application} {text : String} :
    read text = .ok application ↔
      ∃ parts, Phrase application parts ∧ Text.Written parts text := by
  constructor
  · intro accepted
    have phrase := phrase_read accepted
    exact ⟨_, phrase, (Text.words_exact phrase.solid).mp rfl⟩
  · intro laid
    obtain ⟨parts, phrase, written⟩ := laid
    exact read_phrase phrase written

theorem phrase_unique {one other : Application} {parts others : List String} {text : String}
    (phrase : Phrase one parts) (written : Text.Written parts text)
    (second : Phrase other others) (again : Text.Written others text) :
    one = other ∧ parts = others := by
  have first := read_phrase phrase written
  rw [read_phrase second again] at first
  have words := (Text.words_exact phrase.solid).mpr written
  rw [(Text.words_exact second.solid).mpr again] at words
  exact ⟨(Except.ok.inj first).symm, words.symm⟩

theorem read_grammar (text : String) :
    (∀ operator left right, read text = .ok ⟨operator, [left, right]⟩ ↔ operator ≠ .none ∧
      Text.Written (Text.words left.name ++ operator.symbol :: Text.words right.name) text) ∧
    (∀ operator operand, read text = .ok ⟨operator, [operand]⟩ ↔ operator ≠ .none ∧
      Text.Written (operator.symbol :: Text.words operand.name) text) ∧
    (∀ application, read text = .ok application → application.operator ≠ .none ∧
      ∃ parts, Phrase application parts ∧ Text.Written parts text ∧
        read (Text.joined parts) = .ok application) ∧
    ∀ one other parts others, Phrase one parts → Text.Written parts text →
      Phrase other others → Text.Written others text → one = other ∧ parts = others := by
  refine ⟨?_, ?_, ?_, ?_⟩
  · intro operator left right
    constructor
    · intro accepted
      obtain ⟨parts, phrase, written⟩ := read_exact.mp accepted
      cases phrase with
      | between present => exact ⟨present, written⟩
    · intro laid
      exact read_phrase (.between laid.1) laid.2
  · intro operator operand
    constructor
    · intro accepted
      obtain ⟨parts, phrase, written⟩ := read_exact.mp accepted
      cases phrase with
      | before present => exact ⟨present, written⟩
    · intro laid
      exact read_phrase (.before laid.1) laid.2
  · intro application accepted
    obtain ⟨parts, phrase, written⟩ := read_exact.mp accepted
    exact ⟨phrase.present, parts, phrase, written, read_phrase phrase (Text.joined_written parts)⟩
  · intro one other parts others phrase written second again
    exact phrase_unique phrase written second again

end Application
end MethodFrame
