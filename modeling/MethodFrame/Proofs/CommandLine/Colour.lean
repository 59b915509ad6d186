import MethodFrame.Proofs.CommandLine.Output
import MethodFrame.Proofs.Journal.Reading

-- Colours change how a run looks and nothing that it says: without the sequences that switch them
-- the coloured output is the plain one, because no text that is printed can hold a sequence itself.
namespace MethodFrame

def Text.Unescaped (text : String) : Prop := '\x1b' ∉ text.toList

instance (text : String) : Decidable (Text.Unescaped text) :=
  inferInstanceAs (Decidable ('\x1b' ∉ text.toList))

namespace Text

theorem Unescaped.append {one other : String} (first : Unescaped one) (second : Unescaped other) :
    Unescaped (one ++ other) := by
  rw [Unescaped, String.toList_append]
  exact List.not_mem_append first second

theorem unescaped_repr (number : Nat) : Unescaped number.repr := digits_solid (by decide) number

theorem Unescaped.place {text : String} (unescaped : Unescaped text) (column : Column)
    (fill : column.fill ≠ '\x1b') : Unescaped (column.place text) := by
  have kept : ∀ count, '\x1b' ∉ List.replicate count column.fill := fun count member =>
    fill (List.eq_of_mem_replicate member).symm
  rw [Unescaped, Column.place, String.toList_ofList]
  refine List.not_mem_append (List.not_mem_append (kept _) ?_) (kept _)
  cases column.precision with
  | none => exact unescaped
  | some limit => exact fun member => unescaped (List.mem_of_mem_take member)

end Text

namespace Style

-- What is left of a text without the sequences for red, for dimmed and for the reset. A sequence
-- has its first character nowhere else, so each of them is met on the way from left to right.
def strip : List Char → List Char
  | [] => []
  | '\x1b' :: '[' :: '3' :: '1' :: 'm' :: rest => strip rest
  | '\x1b' :: '[' :: '2' :: 'm' :: rest => strip rest
  | '\x1b' :: '[' :: '0' :: 'm' :: rest => strip rest
  | c :: rest => c :: strip rest

def bare (text : String) : String := String.ofList (strip text.toList)

theorem strip_cons {c : Char} (other : c ≠ '\x1b') (rest : List Char) :
    strip (c :: rest) = c :: strip rest := by
  simp [strip, other]

theorem strip_append {text : List Char} (unescaped : '\x1b' ∉ text) (rest : List Char) :
    strip (text ++ rest) = text ++ strip rest := by
  induction text with
  | nil => rfl
  | cons c text ih =>
    rw [List.mem_cons, not_or] at unescaped
    obtain ⟨first, others⟩ := unescaped
    rw [List.cons_append, strip_cons (Ne.symm first), ih others, List.cons_append]

structure Painted (coloured plain : String) : Prop where
  stripped : ∀ rest, strip (coloured.toList ++ rest) = plain.toList ++ strip rest
  unescaped : Text.Unescaped plain

namespace Painted
variable {coloured plain : String}

theorem bare (painted : Painted coloured plain) : Style.bare coloured = plain := by
  have whole := painted.stripped []
  rw [List.append_nil, strip, List.append_nil] at whole
  rw [Style.bare, whole, String.ofList_toList]

theorem same {text : String} (unescaped : Text.Unescaped text) : Painted text text :=
  ⟨strip_append unescaped, unescaped⟩

-- No sequence is reset in a text that cannot hold one, so the text is wrapped as it is.
theorem paint {painter : Bool → Paint} (painting : Painting painter) (style : Style) {text : String}
    (unescaped : Text.Unescaped text) :
    Painted (painter true style text) (painter false style text) := by
  have inside : ¬Style.reset.toList <:+: text.toList := fun reset =>
    unescaped (reset.subset List.mem_cons_self)
  rw [painting.bare, painting.wrapped style text inside]
  refine ⟨fun rest => ?_, unescaped⟩
  have started : ∀ later, strip (style.start.toList ++ later) = strip later := by
    cases style <;> exact fun later => rfl
  rw [String.toList_append, String.toList_append, List.append_assoc, List.append_assoc, started]
  calc strip (text.toList ++ (Style.reset.toList ++ rest))
      = text.toList ++ strip (Style.reset.toList ++ rest) := strip_append unescaped _
    _ = text.toList ++ strip rest := rfl

theorem append {painted bare : String} (first : Painted coloured plain)
    (second : Painted painted bare) : Painted (coloured ++ painted) (plain ++ bare) := by
  refine ⟨fun rest => ?_, first.unescaped.append second.unescaped⟩
  rw [String.toList_append, String.toList_append, List.append_assoc, List.append_assoc,
    first.stripped, second.stripped]

theorem join {α : Type} {left right : α → String} {items : List α}
    (each : ∀ item ∈ items, Painted (left item) (right item)) :
    Painted (String.join (items.map left)) (String.join (items.map right)) := by
  induction items with
  | nil => exact (same (by decide) : Painted "" "")
  | cons item rest ih =>
    obtain ⟨first, others⟩ := List.forall_mem_cons.mp each
    rw [List.map_cons, List.map_cons, String.join_cons, String.join_cons]
    exact first.append (ih others)

end Painted
end Style

namespace Table
open Text

theorem typeRow_unescaped (type : OperandType) : Unescaped (typeRow type) := by
  have name : Unescaped type.name := by cases type <;> decide
  have descriptor : Unescaped type.descriptor := by cases type <;> decide
  have index := (unescaped_repr type.index).place (.ofRight 2) (by decide)
  exact (((index.append (by decide)).append (name.place (.ofLeft 10) (by decide))).append
    (by decide)).append descriptor

theorem operatorRow_unescaped (operator : Operator) : Unescaped (operatorRow operator) := by
  have symbol : Unescaped operator.display := by cases operator <;> decide
  have label : Unescaped operator.category.label := by cases operator <;> decide
  have index := (unescaped_repr operator.index).place (.ofRight 2) (by decide)
  exact (((((index.append (by decide)).append (symbol.place (.ofLeft 4) (by decide))).append
    (by decide)).append label).append (by decide)).append (unescaped_repr operator.arity)

theorem stateRow_unescaped (state : BodyState) : Unescaped (stateRow state) := by
  have name : Unescaped state.name := by cases state <;> decide
  have index := (unescaped_repr state.index).place (.ofRight 2) (by decide)
  exact (index.append (by decide)).append name

theorem rows_unescaped (table : Table) : ∀ row ∈ table.rows, Unescaped row := by
  cases table with
  | types => exact List.forall_mem_map.mpr fun type _ => typeRow_unescaped type
  | operators => exact List.forall_mem_map.mpr fun operator _ => operatorRow_unescaped operator
  | commands => exact List.forall_mem_map.mpr fun state _ => stateRow_unescaped state
  | limits => decide

theorem print_painted {painter : Bool → Paint} (painting : Painting painter) (table : Table) :
    Style.Painted (table.print (painter true)) (table.print (painter false)) := by
  have title : Unescaped table.title := by cases table <;> decide
  have rows : Style.Painted (String.join (table.rows.map fun row => "  " ++ row ++ "\n"))
      (String.join (table.rows.map fun row => "  " ++ row ++ "\n")) :=
    .join fun row member => .same (((by decide : Unescaped "  ").append
      (table.rows_unescaped row member)).append (by decide))
  exact ((Style.Painted.paint painting .red title).append (.same (by decide))).append rows

end Table

namespace Application

def Lettered (c : Char) : Prop :=
  (∃ type : OperandType, c ∈ type.name.toList) ∨ ∃ operator : Operator, c ∈ operator.symbol.toList

theorem Lettered.not_escape {c : Char} (lettered : Lettered c) : c ≠ '\x1b' := by
  rintro rfl
  rcases lettered with ⟨type, member⟩ | ⟨operator, member⟩
  · revert member
    cases type <;> decide
  · revert member
    cases operator <;> decide

theorem Phrase.lettered {application : Application} {parts : List String}
    (phrase : Phrase application parts) :
    ∀ word ∈ parts, ∀ c ∈ word.toList, Lettered c := by
  have named : ∀ type : OperandType, ∀ word ∈ Text.words type.name, ∀ c ∈ word.toList, Lettered c :=
    fun type word part c member => .inl ⟨type, Text.words_covered part member⟩
  cases phrase with
  | before present =>
    exact List.forall_mem_cons.mpr ⟨fun c member => .inr ⟨_, member⟩, named _⟩
  | between present =>
    exact List.forall_mem_append.mpr
      ⟨named _, List.forall_mem_cons.mpr ⟨fun c member => .inr ⟨_, member⟩, named _⟩⟩

theorem check_lettered {text : String} {type : OperandType} (checked : check text = .ok type) :
    ∀ c ∈ text.toList, Text.isBlank c = true ∨ Lettered c := by
  intro c member
  obtain ⟨operator, operands, accepted, _⟩ := check_accepts.mp checked
  obtain ⟨parts, phrase, written⟩ := read_exact.mp accepted
  rcases written.letter member with blank | ⟨word, part, here⟩
  · exact .inl blank
  · exact .inr (phrase.lettered word part c here)

theorem check_unescaped {text : String} {type : OperandType} (checked : check text = .ok type) :
    Text.Unescaped text := by
  intro member
  rcases check_lettered checked _ member with blank | lettered
  · exact absurd blank (by decide)
  · exact lettered.not_escape rfl

end Application

namespace CommandLine
variable {tools : Toolkit} {options : Options} {arguments : List String}

theorem sections_painted (painting : Painting tools.painter) (options : Options) :
    Style.Painted (sections (tools.painter true) options) (sections (tools.painter false) options) :=
  .join fun table _ => table.print_painted painting

theorem checked_painted (painting : Painting tools.painter) {text : String} {type : OperandType}
    (checked : Application.check text = .ok type) :
    Style.Painted (printChecked (tools.painter true) text type)
      (printChecked (tools.painter false) text type) := by
  have name : Text.Unescaped type.name := by cases type <;> decide
  have comment := (by decide : Text.Unescaped "; ").append (Application.check_unescaped checked)
  exact (((Style.Painted.same name).append (.same (by decide))).append
    (.paint painting .dimmed comment)).append (.same (by decide))

structure Recoloured (coloured plain : Transcript) : Prop where
  exit : coloured.exit = plain.exit
  errors : coloured.errors = plain.errors
  output : Style.Painted coloured.output plain.output

theorem execute_recoloured (painting : Painting tools.painter) (settings : Settings)
    (options : Options) : Recoloured (execute tools { settings with coloured := true } options)
      (execute tools { settings with coloured := false } options) := by
  have shown := sections_painted painting options
  cases given : options.check with
  | none =>
    simp only [execute, given]
    exact ⟨rfl, rfl, shown⟩
  | some text =>
    cases checked : Application.check text with
    | ok type =>
      simp only [execute, given, checked]
      exact ⟨rfl, rfl, shown.append (checked_painted painting checked)⟩
    | error fault =>
      simp only [execute, given, checked]
      exact ⟨rfl, rfl, shown⟩

theorem colours_apart (painting : Painting tools.painter) (settings : Settings)
    (accepted : Options.read tools.parser arguments = .ok options) :
    (run tools { settings with coloured := true } arguments).exit =
        (run tools { settings with coloured := false } arguments).exit ∧
      (run tools { settings with coloured := true } arguments).errors =
        (run tools { settings with coloured := false } arguments).errors ∧
      Style.bare (run tools { settings with coloured := true } arguments).output =
        (run tools { settings with coloured := false } arguments).output ∧
      Text.Unescaped (run tools { settings with coloured := false } arguments).output ∧
      ∀ text type, Application.check text = .ok type →
        ∀ c ∈ text.toList, Text.isBlank c = true ∨ Application.Lettered c := by
  obtain ⟨exit, errors, output⟩ := execute_recoloured painting settings options
  simp only [run_accepted accepted]
  exact ⟨exit, errors, output.bare, output.unescaped,
    fun text type checked => Application.check_lettered checked⟩

-- A sequence that the user writes is refused with its text, and a check that is accepted is dimmed.
theorem colours_apart_escape :
    Painting Toolkit.standard.painter ∧
    Options.read Toolkit.standard.parser ["--limits", "--check=\x1b[2mint\x1b[0m + int"] =
      .ok { limits := true, check := some "\x1b[2mint\x1b[0m + int" } ∧
    Options.read Toolkit.standard.parser ["--check", "int\t+ float"] =
      .ok { check := some "int\t+ float" } ∧
    Style.bare (run .standard { coloured := true }
        ["--limits", "--check=\x1b[2mint\x1b[0m + int"]).output =
      (run .standard {} ["--limits", "--check=\x1b[2mint\x1b[0m + int"]).output ∧
    Style.bare (run .standard { coloured := true } ["--check", "int\t+ float"]).output =
      (run .standard {} ["--check", "int\t+ float"]).output := by
  have painting := Toolkit.standard_lawful.2.1
  have refused : Options.read Toolkit.standard.parser
      ["--limits", "--check=\x1b[2mint\x1b[0m + int"] =
      .ok { limits := true, check := some "\x1b[2mint\x1b[0m + int" } := by decide +kernel
  have typed : Options.read Toolkit.standard.parser ["--check", "int\t+ float"] =
      .ok { check := some "int\t+ float" } := by decide +kernel
  exact ⟨painting, refused, typed, (colours_apart painting {} refused).2.2.1,
    (colours_apart painting {} typed).2.2.1⟩

end CommandLine
end MethodFrame
