import MethodFrame.Fault
import MethodFrame.Proofs.Text.Row

-- Messages and dumps tell faults apart, whatever the texts in them say. The kind of a fault shows
-- in the fixed words in front, and behind these every field can be told from what follows it.
namespace MethodFrame

theorem Operator.display_inj {left right : Operator} :
    left.display = right.display ↔ left = right :=
  (by decide : ∀ left ∈ all, ∀ right ∈ all, display left = display right ↔ left = right)
    left left.mem_all right right.mem_all

theorem Operator.label_inj {left right : Operator} : left.label = right.label ↔ left = right :=
  (by decide : ∀ left ∈ all, ∀ right ∈ all, label left = label right ↔ left = right)
    left left.mem_all right right.mem_all

theorem OperandType.label_inj {left right : OperandType} :
    left.label = right.label ↔ left = right :=
  (by decide : ∀ left ∈ all, ∀ right ∈ all, label left = label right ↔ left = right)
    left left.mem_all right right.mem_all

-- A name may hold a blank, but none goes on with the word that joins two names.
theorem OperandType.joined_apart : ∀ left ∈ all, ∀ right ∈ all,
    ((left.name ++ " and ").toList <+: (right.name ++ " and ").toList → left = right) ∧
    ¬ (left.name ++ " and ").toList <+: right.name.toList := by
  decide

theorem OperandType.names_inj {left right first second : OperandType} :
    left.name ++ " and " ++ right.name = first.name ++ " and " ++ second.name ↔
      left = first ∧ right = second := by
  constructor
  · intro same
    have opens : (left.name ++ " and ").toList <+: (first.name ++ " and " ++ second.name).toList :=
      ⟨right.name.toList, by rw [← String.toList_append, same]⟩
    have begins : (first.name ++ " and ").toList <+:
        (first.name ++ " and " ++ second.name).toList :=
      ⟨second.name.toList, String.toList_append.symm⟩
    have front : left = first := by
      rcases List.prefix_or_prefix_of_prefix opens begins with inner | outer
      · exact (joined_apart _ left.mem_all _ first.mem_all).1 inner
      · exact ((joined_apart _ first.mem_all _ left.mem_all).1 outer).symm
    rw [front, String.append_right_inj] at same
    exact ⟨front, name_inj.mp same⟩
  · rintro ⟨rfl, rfl⟩
    rfl

theorem OperandType.names_apart (left right operand : OperandType) :
    left.name ++ " and " ++ right.name ≠ operand.name := by
  intro same
  apply (joined_apart _ left.mem_all _ operand.mem_all).2
  exact ⟨right.name.toList, by rw [← String.toList_append, same]⟩

theorem Operator.display_solid : ∀ operator ∈ all, '`' ∉ operator.display.toList := by
  decide

theorem Operator.label_solid : ∀ operator ∈ all, ',' ∉ operator.label.toList := by
  decide

theorem OperandType.label_solid : ∀ type ∈ all, ',' ∉ type.label.toList := by
  decide

namespace Fault
open Text (Field row rowForm row_letters row_unique)

-- The kind of a fault: the fault with its fields emptied.
def kind : Fault → Fault
  | .unknownType _ => .unknownType ""
  | .unknownOperator _ => .unknownOperator ""
  | .invalidTag .. => .invalidTag "" 0
  | .typeMismatch .. => .typeMismatch .none .void .void
  | .unaryTypeMismatch .. => .unaryTypeMismatch .none .void
  | .arityMismatch .. => .arityMismatch .none 0 0
  | .missingPayload _ => .missingPayload .void
  | .redeclared _ => .redeclared ""
  | .localsExhausted _ => .localsExhausted 0
  | .slotNotInUse _ => .slotNotInUse 0
  | .stackOverflow _ => .stackOverflow 0
  | .stackUnderflow => .stackUnderflow
  | .internal .. => .internal "" "" 0

def kinds : List Fault :=
  [.unknownType "", .unknownOperator "", .invalidTag "" 0, .typeMismatch .none .void .void,
    .unaryTypeMismatch .none .void, .arityMismatch .none 0 0, .missingPayload .void, .redeclared "",
    .localsExhausted 0, .slotNotInUse 0, .stackOverflow 0, .stackUnderflow, .internal "" "" 0]

theorem kind_mem (fault : Fault) : fault.kind ∈ kinds := by
  cases fault <;> simp [kind, kinds]

theorem label_kind (fault : Fault) : fault.kind.label = fault.label := by
  cases fault <;> rfl

theorem kind_of_label {left right : Fault} (same : left.label = right.label) :
    left.kind = right.kind := by
  rw [← label_kind left, ← label_kind right] at same
  exact (by decide : ∀ left ∈ kinds, ∀ right ∈ kinds, left.label = right.label → left = right)
    _ left.kind_mem _ right.kind_mem same

def lead : Fault → String
  | .unknownType _ => "Unknown semantic type: `"
  | .unknownOperator _ => "Unknown operator: `"
  | .invalidTag .. => ""
  | .typeMismatch .. | .unaryTypeMismatch .. | .arityMismatch .. => "Operator `"
  | .missingPayload _ => "A "
  | .redeclared _ => "Variable `"
  | .localsExhausted _ => "No free local variable slot (limit "
  | .slotNotInUse _ => "Slot "
  | .stackOverflow _ => "Operand stack overflow (limit "
  | .stackUnderflow => "Operand stack underflow"
  | .internal .. => "Bug: "

theorem lead_kind (fault : Fault) : fault.kind.lead = fault.lead := by
  cases fault <;> rfl

theorem kind_of_lead {left right : Fault} (leading : left.lead = right.lead) :
    left.kind = right.kind ∨ left.lead = "Operator `" := by
  rw [← lead_kind left, ← lead_kind right] at leading
  rw [← lead_kind left]
  exact (by decide : ∀ left ∈ kinds, ∀ right ∈ kinds, left.lead = right.lead →
    left = right ∨ left.lead = "Operator `") _ left.kind_mem _ right.kind_mem leading

theorem lead_unique {left right : Fault} (worded : left.lead.toList ≠ [])
    (opens : left.lead.toList <+: right.lead.toList) : left.lead = right.lead := by
  rw [← lead_kind left] at worded opens ⊢
  rw [← lead_kind right] at opens ⊢
  exact (by decide : ∀ left ∈ kinds, ∀ right ∈ kinds, left.lead.toList ≠ [] →
    left.lead.toList <+: right.lead.toList → left.lead = right.lead)
    _ left.kind_mem _ right.kind_mem worded opens

theorem lead_cases (fault : Fault) : (∃ vocabulary tag, fault = .invalidTag vocabulary tag) ∨
    ∃ letter rest, fault.lead.toList = letter :: rest ∧ letter.isDigit = false := by
  cases fault <;> simp [lead]

-- The fields of a message, each with the words behind it.
def said : Fault → List (Field × String)
  | .unknownType text | .unknownOperator text => [(.word text, "`")]
  | .invalidTag vocabulary tag =>
    [(.numeral tag.toNat, " is not a discriminant of "), (.word vocabulary, "")]
  | .typeMismatch operator left right =>
    [(.word operator.display, "` cannot be applied to "),
      (.word (left.name ++ " and " ++ right.name), "")]
  | .unaryTypeMismatch operator operand =>
    [(.word operator.display, "` cannot be applied to "), (.word operand.name, "")]
  | .arityMismatch operator expected actual =>
    [(.word operator.display, "` takes "), (.numeral expected, " operand(s), but "),
      (.numeral actual, " given")]
  | .missingPayload type => [(.word type.name, " value has no payload")]
  | .redeclared name => [(.word name, "` is already declared")]
  | .localsExhausted limit | .stackOverflow limit => [(.numeral limit, ")")]
  | .slotNotInUse index => [(.numeral index, " is not in use")]
  | .stackUnderflow => []
  | .internal message file line =>
    [(.quoted message, " at "), (.quoted file, ":"), (.numeral line, "")]

theorem message_row (quote : String → String) (fault : Fault) :
    fault.messageWith quote = fault.lead ++ row quote fault.said := by
  unfold messageWith lead said
  cases fault <;> dsimp only <;>
    simp only [row, Field.written, String.append_assoc, String.append_empty, String.empty_append]

theorem said_form (fault : Fault) : rowForm fault.said = rowForm fault.kind.said := by
  cases fault <;> rfl

theorem said_separable (fault : Fault) : Text.Separable fault.said := by
  cases fault <;> simp [said, Text.Separable, Field.EndsAt, Operator.display_solid, Operator.mem_all]

theorem digit_of_tag (quote : String → String) (vocabulary : String) (tag : UInt8) :
    (messageWith quote (.invalidTag vocabulary tag)).toList.head?.map Char.isDigit = some true := by
  unfold messageWith
  dsimp only
  obtain ⟨digit, digits, parts⟩ := List.exists_cons_of_ne_nil (@Nat.toDigits_ne_nil tag.toNat 10)
  have number : digit ∈ Nat.toDigits 10 tag.toNat := by simp [parts]
  simp [parts, Nat.isDigit_of_mem_toDigits (by decide) (by decide) number]

theorem lead_ne_tag {quote : String → String} {fault : Fault} {vocabulary : String} {tag : UInt8}
    {letter : Char} {rest : List Char} (opened : fault.lead.toList = letter :: rest)
    (plain : letter.isDigit = false) :
    fault.messageWith quote ≠ messageWith quote (.invalidTag vocabulary tag) := by
  intro same
  have digit := digit_of_tag quote vocabulary tag
  rw [← same, message_row] at digit
  simp [opened, plain] at digit

theorem lead_of_message {quote : String → String} {left right : Fault}
    (same : left.messageWith quote = right.messageWith quote) : left.lead = right.lead := by
  have opens : left.lead.toList <+: (right.messageWith quote).toList :=
    ⟨_, by rw [← same, message_row, String.toList_append]⟩
  have begins : right.lead.toList <+: (right.messageWith quote).toList :=
    ⟨_, by rw [message_row, String.toList_append]⟩
  rcases left.lead_cases with ⟨vocabulary, tag, rfl⟩ | ⟨letter, rest, worded, plain⟩ <;>
    rcases right.lead_cases with ⟨term, number, rfl⟩ | ⟨first, others, spoken, clear⟩
  · rfl
  · exact absurd same.symm (lead_ne_tag spoken clear)
  · exact absurd same (lead_ne_tag worded plain)
  · rcases List.prefix_or_prefix_of_prefix opens begins with inner | outer
    · exact lead_unique (by simp [worded]) inner
    · exact (lead_unique (by simp [spoken]) outer).symm

-- The operator comes first in three kinds of message. Two of them go on in the same words.
theorem operator_cases {fault : Fault} (about : fault.lead = "Operator `") :
    (∃ operator left right, fault = .typeMismatch operator left right) ∨
    (∃ operator operand, fault = .unaryTypeMismatch operator operand) ∨
    ∃ operator expected actual, fault = .arityMismatch operator expected actual := by
  cases fault <;> simp [lead] at about ⊢

theorem arity_apart {quote : String → String} (operator other : Operator)
    (fields others : List (Field × String)) :
    row quote ((.word operator.display, "` takes ") :: fields) ≠
      row quote ((.word other.display, "` cannot be applied to ") :: others) := by
  intro same
  have letters := congrArg String.toList same
  rw [row_letters, row_letters] at letters
  have behind : " takes ".toList ++ (row quote fields).toList =
      " cannot be applied to ".toList ++ (row quote others).toList :=
    (Text.mark_unique (Operator.display_solid _ operator.mem_all)
      (Operator.display_solid _ other.mem_all) letters).2
  simp at behind

theorem form_of_said {quote : String → String} {left right : Fault}
    (leading : left.lead = right.lead) (same : row quote left.said = row quote right.said) :
    rowForm left.said = rowForm right.said := by
  rcases kind_of_lead leading with alike | about
  · rw [said_form left, said_form right, alike]
  · rcases operator_cases about with ⟨_, _, _, rfl⟩ | ⟨_, _, rfl⟩ | ⟨_, _, _, rfl⟩ <;>
      rcases operator_cases (leading ▸ about) with ⟨_, _, _, rfl⟩ | ⟨_, _, rfl⟩ | ⟨_, _, _, rfl⟩ <;>
      first
      | rfl
      | exact absurd same (arity_apart _ _ _ _)
      | exact absurd same.symm (arity_apart _ _ _ _)

theorem said_exact {left right : Fault} (leading : left.lead = right.lead)
    (same : left.said = right.said) : left = right := by
  rcases kind_of_lead leading with alike | about
  · cases left <;> cases right <;> cases alike <;>
      simp_all [said, Operator.display_inj, OperandType.name_inj, OperandType.names_inj,
        UInt8.toNat_inj]
  · rcases operator_cases about with ⟨_, _, _, rfl⟩ | ⟨_, _, rfl⟩ | ⟨_, _, _, rfl⟩ <;>
      rcases operator_cases (leading ▸ about) with ⟨_, _, _, rfl⟩ | ⟨_, _, rfl⟩ | ⟨_, _, _, rfl⟩ <;>
      simp_all [said, Operator.display_inj, OperandType.name_inj, OperandType.names_inj,
        OperandType.names_apart, (OperandType.names_apart _ _ _).symm]

theorem message_injective {quote : String → String} (delimits : Text.Delimits quote)
    {left right : Fault} (same : left.messageWith quote = right.messageWith quote) :
    left = right := by
  have leading := lead_of_message same
  rw [message_row, message_row, leading, String.append_right_inj] at same
  have form := form_of_said leading same
  exact said_exact leading (row_unique delimits form left.said_separable right.said_separable same)

def dumped (fault : Fault) : List (Field × String) :=
  match fault with
  | .unknownType text | .unknownOperator text | .redeclared text =>
    [(.word fault.label, "("), (.quoted text, ")")]
  | .invalidTag vocabulary tag =>
    [(.word fault.label, " \x7b name: "), (.quoted vocabulary, ", value: "),
      (.numeral tag.toNat, " \x7d")]
  | .typeMismatch operator left right =>
    [(.word fault.label, "("), (.word operator.label, ", "), (.word left.label, ", "),
      (.word right.label, ")")]
  | .unaryTypeMismatch operator operand =>
    [(.word fault.label, "("), (.word operator.label, ", "), (.word operand.label, ")")]
  | .arityMismatch operator expected actual =>
    [(.word fault.label, " \x7b op: "), (.word operator.label, ", expected: "),
      (.numeral expected, ", actual: "), (.numeral actual, " \x7d")]
  | .missingPayload type => [(.word fault.label, "("), (.word type.label, ")")]
  | .localsExhausted size | .slotNotInUse size | .stackOverflow size =>
    [(.word fault.label, "("), (.numeral size, ")")]
  | .stackUnderflow => [(.word fault.label, "")]
  | .internal message file line =>
    [(.word fault.label, " \x7b message: "), (.quoted message, ", file: "),
      (.quoted file, ", line: "), (.numeral line, " \x7d")]

theorem dump_row (quote : String → String) (fault : Fault) :
    fault.dumpWith quote = row quote fault.dumped := by
  apply String.toList_inj.mp
  unfold dumpWith dumped
  cases fault <;> dsimp only <;> simp [tuple, named, row, Field.written]

theorem dumped_form (fault : Fault) : rowForm fault.dumped = rowForm fault.kind.dumped := by
  cases fault <;> rfl

theorem dumped_separable (fault : Fault) : Text.Separable fault.dumped := by
  cases fault <;> simp [dumped, Text.Separable, Field.EndsAt, label, Operator.label_solid,
    Operator.mem_all, OperandType.label_solid, OperandType.mem_all]

theorem dumped_exact {left right : Fault} (alike : left.kind = right.kind)
    (same : left.dumped = right.dumped) : left = right := by
  cases left <;> cases right <;> cases alike <;>
    simp_all [dumped, label, Operator.label_inj, OperandType.label_inj, UInt8.toNat_inj]

theorem label_letters (fault : Fault) : ∀ c ∈ fault.label.toList, c.isAlpha = true := by
  cases fault <;> simp [label]

theorem dump_label (quote : String → String) (fault : Fault) :
    ((fault.dumpWith quote).toList).takeWhile Char.isAlpha = fault.label.toList := by
  have parts : ∃ behind, (fault.dumpWith quote).toList = fault.label.toList ++ behind ∧
      behind.takeWhile Char.isAlpha = [] := by
    rw [dump_row]
    cases fault <;> exact ⟨_, row_letters _ _ _ _, by simp [row]⟩
  obtain ⟨behind, letters, mark⟩ := parts
  rw [letters, List.takeWhile_append_of_pos fault.label_letters, mark, List.append_nil]

theorem label_of_dump {quote : String → String} {left right : Fault}
    (same : left.dumpWith quote = right.dumpWith quote) : left.label = right.label := by
  have word := congrArg (fun text : String => text.toList.takeWhile Char.isAlpha) same
  simp only [dump_label] at word
  exact String.toList_inj.mp word

theorem dump_injective {quote : String → String} (delimits : Text.Delimits quote)
    {left right : Fault} (same : left.dumpWith quote = right.dumpWith quote) :
    left = right := by
  have alike := kind_of_label (label_of_dump same)
  rw [dump_row, dump_row] at same
  have form : rowForm left.dumped = rowForm right.dumped := by
    rw [dumped_form left, dumped_form right, alike]
  exact dumped_exact alike
    (row_unique delimits form left.dumped_separable right.dumped_separable same)

-- This does not depend on which characters are written by their code points.
theorem texts_identify (left right : Fault) :
    (left = right ↔ left.message = right.message) ∧ (left = right ↔ left.dump = right.dump) ∧
    ∀ coded : Char → Bool,
      (left = right ↔
        left.messageWith (Text.quotedWith coded) = right.messageWith (Text.quotedWith coded)) ∧
      (left = right ↔
        left.dumpWith (Text.quotedWith coded) = right.dumpWith (Text.quotedWith coded)) := by
  have messages (coded : Char → Bool) : left = right ↔
      left.messageWith (Text.quotedWith coded) = right.messageWith (Text.quotedWith coded) :=
    ⟨congrArg _, message_injective (Text.quotedWith_delimits coded)⟩
  have dumps (coded : Char → Bool) : left = right ↔
      left.dumpWith (Text.quotedWith coded) = right.dumpWith (Text.quotedWith coded) :=
    ⟨congrArg _, dump_injective (Text.quotedWith_delimits coded)⟩
  exact ⟨messages Text.isControl, dumps Text.isControl, fun coded => ⟨messages coded, dumps coded⟩⟩

end Fault
end MethodFrame
