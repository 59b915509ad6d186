import MethodFrame.Journal

-- Log lines read back into the events they tell of. A line quotes the name of a local unescaped, so
-- it is read from its end: what stands behind the name holds no second colon and no second slot.
namespace MethodFrame

namespace Text

def splitFirst (mark : Char) (text : List Char) : List Char × List Char :=
  (text.takeWhile (· ≠ mark), (text.dropWhile (· ≠ mark)).tail)

def splitLast? (mark : Char) : List Char → Option (List Char × List Char)
  | [] => none
  | c :: rest => match splitLast? mark rest with
    | some (front, behind) => some (c :: front, behind)
    | none => if c = mark then some ([], rest) else none

def dropTail (tail : String) (text : List Char) : List Char :=
  text.take (text.length - tail.toList.length)

def readNumber (digits : List Char) : Nat := Nat.ofDigitChars 10 digits 0

theorem splitFirst_append {mark : Char} {front : List Char} (absent : mark ∉ front)
    (behind : List Char) : splitFirst mark (front ++ mark :: behind) = (front, behind) := by
  have solid : ∀ c ∈ front, decide (c ≠ mark) = true :=
    fun c member => decide_eq_true (fun same => absent (same ▸ member))
  rw [splitFirst, List.takeWhile_append_of_pos solid, List.dropWhile_append_of_pos solid]
  simp

theorem splitLast_absent {mark : Char} {text : List Char} (absent : mark ∉ text) :
    splitLast? mark text = none := by
  induction text with
  | nil => rfl
  | cons c rest ih =>
    rw [List.mem_cons, not_or] at absent
    rw [splitLast?, ih absent.2]
    exact if_neg (Ne.symm absent.1)

theorem splitLast_append {mark : Char} (front : List Char) {behind : List Char}
    (absent : mark ∉ behind) : splitLast? mark (front ++ mark :: behind) = some (front, behind) := by
  induction front with
  | nil =>
    rw [List.nil_append, splitLast?, splitLast_absent absent]
    exact if_pos rfl
  | cons c rest ih => rw [List.cons_append, splitLast?, ih]

theorem dropTail_append (front : List Char) (tail : String) :
    dropTail tail (front ++ tail.toList) = front := by
  rw [dropTail, List.length_append, Nat.add_sub_cancel, List.take_left]

theorem readNumber_repr (number : Nat) : readNumber number.repr.toList = number := by
  rw [Nat.toList_repr, readNumber]
  exact Nat.ofDigitChars_toDigits (by decide) (by decide)

theorem digits_solid {mark : Char} (solid : mark.isDigit = false) (number : Nat) :
    mark ∉ number.repr.toList := by
  intro member
  rw [Nat.toList_repr] at member
  rw [Nat.isDigit_of_mem_toDigits (by decide) (by decide) member] at solid
  cases solid

end Text

theorem OperandType.colon_not_in_name (type : OperandType) : ':' ∉ type.name.toList := by
  cases type <;> decide

namespace Event

def line (event : Event) : Level × String := (event.level, event.text)

def readSlot? (text : List Char) : Option (List Char × Slot) := do
  let (front, digits) ← Text.splitLast? ' ' text
  let slot ← Slot.ofNat? (Text.readNumber digits)
  return (front, slot)

def readType? (text : List Char) : Option OperandType := OperandType.ofName? (String.ofList text)

-- Each kind of event has a first word of its own, and its level adds nothing to that.
def read? (line : Level × String) : Option Event :=
  let (word, rest) := Text.splitFirst ' ' line.2.toList
  match String.ofList word with
  | "declare" => do
    let (front, slot) ← readSlot? rest
    let (name, type) ← Text.splitLast? ':' (Text.dropTail " at slot" front)
    return .declared (String.ofList name) (← readType? type.tail) slot
  | "temporary" => do
    let (front, slot) ← readSlot? rest
    return .temporary (← readType? (Text.dropTail " at slot" front)) slot
  | "release" => do
    let (_, slot) ← readSlot? rest
    return .released slot
  | "push" => do
    let (front, digits) ← Text.splitLast? ' ' (Text.dropTail ")" rest)
    return .pushed (← readType? (Text.dropTail " (depth" front)) (Text.readNumber digits)
  | _ => none

theorem readSlot_display (front : List Char) (slot : Slot) :
    readSlot? (front ++ ' ' :: slot.display.toList) = some (front, slot) := by
  have solid : ' ' ∉ slot.display.toList := Text.digits_solid (by decide) slot.index
  have number : Slot.ofNat? (Text.readNumber slot.display.toList) = some slot :=
    Slot.ofNat_exact.mpr (Text.readNumber_repr slot.index).symm
  simp [readSlot?, Text.splitLast_append front solid, number]

theorem readType_name (type : OperandType) : readType? type.name.toList = some type := by
  rw [readType?, String.ofList_toList]
  exact OperandType.ofName_exact.mpr rfl

theorem read_declared (name : String) (type : OperandType) (slot : Slot) :
    read? (line (.declared name type slot)) = some (.declared name type slot) := by
  have parts : (text (.declared name type slot)).toList =
      "declare".toList ++ ' ' :: (((name.toList ++ ':' :: ' ' :: type.name.toList) ++
        " at slot".toList) ++ ' ' :: slot.display.toList) := by
    simp [text]
  have colon : ':' ∉ ' ' :: type.name.toList := by
    simp [type.colon_not_in_name]
  rw [read?, line, parts, Text.splitFirst_append (by decide)]
  simp only [String.ofList_toList, readSlot_display, Option.bind_eq_bind, Option.bind_some,
    Text.dropTail_append, Text.splitLast_append _ colon, List.tail_cons, readType_name]
  rfl

theorem read_temporary (type : OperandType) (slot : Slot) :
    read? (line (.temporary type slot)) = some (.temporary type slot) := by
  have parts : (text (.temporary type slot)).toList =
      "temporary".toList ++ ' ' :: ((type.name.toList ++ " at slot".toList) ++
        ' ' :: slot.display.toList) := by
    simp [text]
  rw [read?, line, parts, Text.splitFirst_append (by decide)]
  simp only [String.ofList_toList, readSlot_display, Option.bind_eq_bind, Option.bind_some,
    Text.dropTail_append, readType_name]
  rfl

theorem read_released (slot : Slot) : read? (line (.released slot)) = some (.released slot) := by
  have parts : (text (.released slot)).toList =
      "release".toList ++ ' ' :: ("slot".toList ++ ' ' :: slot.display.toList) := by
    simp [text]
  rw [read?, line, parts, Text.splitFirst_append (by decide)]
  simp only [String.ofList_toList, readSlot_display, Option.bind_eq_bind, Option.bind_some]
  rfl

theorem read_pushed (type : OperandType) (depth : Nat) :
    read? (line (.pushed type depth)) = some (.pushed type depth) := by
  have parts : (text (.pushed type depth)).toList =
      "push".toList ++ ' ' :: (((type.name.toList ++ " (depth".toList) ++
        ' ' :: depth.repr.toList) ++ ")".toList) := by
    simp [text]
  have solid : ' ' ∉ depth.repr.toList := Text.digits_solid (by decide) depth
  rw [read?, line, parts, Text.splitFirst_append (by decide)]
  simp only [String.ofList_toList, Option.bind_eq_bind, Option.bind_some, Text.dropTail_append,
    Text.splitLast_append _ solid, readType_name, Text.readNumber_repr]
  rfl

theorem read_line (event : Event) : read? event.line = some event := by
  cases event with
  | declared name type slot => exact read_declared name type slot
  | temporary type slot => exact read_temporary type slot
  | released slot => exact read_released slot
  | pushed type depth => exact read_pushed type depth

end Event
end MethodFrame
