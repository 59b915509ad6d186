import MethodFrame.Proofs.Application.Agreement
import MethodFrame.Proofs.CommandLine.Tools
import MethodFrame.Proofs.Options.Arrangement

-- What a run prints: the tables that are asked for, then the line of the check. It is put together
-- from what the single selections print, however the arguments are arranged.
namespace MethodFrame

namespace Application

def Accepts (text : String) (type : OperandType) : Prop :=
  ∃ operator operands, read text = .ok ⟨operator, operands⟩ ∧
    operands.length = operator.arity ∧ OperandStack.resultOf operator operands = .ok type

theorem check_accepts {text : String} {type : OperandType} :
    check text = .ok type ↔ Accepts text type := by
  constructor
  · intro checked
    unfold check at checked
    split at checked
    · cases checked
    · rename_i application accepted
      obtain ⟨operator, operands⟩ := application
      by_cases count : operands.length = operator.arity
      · have present := (phrase_read accepted).present
        exact ⟨operator, operands, accepted, count, typeOf_resultOf present count ▸ checked⟩
      · rw [typeOf_mismatch (phrase_read accepted) count] at checked
        cases checked
  · rintro ⟨operator, operands, accepted, count, typed⟩
    rw [check_read accepted, typeOf_resultOf (phrase_read accepted).present count, typed]

end Application

namespace Options
variable {options : Options}

end Options

namespace Table

-- The lines of a section: its title, then its rows behind two blanks.
def lines : Table → List String
  | .types => "Semantic types:" :: OperandType.all.map (fun type => "  " ++ typeRow type)
  | .operators => "Operators:" :: Operator.all.map (fun operator => "  " ++ operatorRow operator)
  | .commands => "Jasmin commands:" :: BodyState.all.map (fun state => "  " ++ stateRow state)
  | .limits => ["Limits:", "  .limit stack 15", "  .limit locals 15"]

theorem lines_exact (table : Table) :
    table.lines = table.title :: table.rows.map (fun row => "  " ++ row) := by
  cases table <;> rfl

def written (table : Table) : String := String.join (table.lines.map (fun line => line ++ "\n"))

theorem print_written {painter : Bool → Paint} (painting : Painting painter) (table : Table) :
    table.print (painter false) = table.written := by
  rw [print, painting.bare, written, lines_exact, List.map_cons, String.join_cons, List.map_map]
  rfl

end Table

namespace CommandLine
variable {tools : Toolkit} {settings : Settings} {options : Options} {arguments : List String}
  {text : String}

theorem run_accepted (accepted : Options.read tools.parser arguments = .ok options) :
    run tools settings arguments = execute tools settings options := by
  rw [run, accepted]

def sections (paint : Paint) (options : Options) : String :=
  String.join ((tables options).map (Table.print paint))

inductive Leaves (tools : Toolkit) (settings : Settings) (options : Options) : Transcript → Prop where
  | unchecked (absent : options.check = none) :
      Leaves tools settings options
        ⟨0, sections (tools.painter settings.coloured) options,
          logged tools.logger settings options⟩
  | typed {text : String} {type : OperandType} (given : options.check = some text)
      (accepts : Application.Accepts text type) :
      Leaves tools settings options
        ⟨0, sections (tools.painter settings.coloured) options ++
          printChecked (tools.painter settings.coloured) text type, ""⟩
  | failed {text : String} {fault : Fault} (given : options.check = some text)
      (refused : Application.check text = .error fault) :
      Leaves tools settings options
        ⟨1, sections (tools.painter settings.coloured) options, "Error: " ++ fault.message ++ "\n"⟩

def part (paint : Paint) : Item → String
  | .flag (.table table) => table.print paint
  | .flag .verbose => ""
  | .check text => match Application.check text with
    | .ok type => printChecked paint text type
    | .error _ => ""

-- The line that a check leaves: the type and the text, if the text has a type.
inductive Line (options : Options) : String → Prop where
  | typed {text : String} {type : OperandType} (given : options.check = some text)
      (accepts : Application.Accepts text type) :
      Line options (type.name ++ " ; " ++ text ++ "\n")
  | none (untyped : ∀ text type, options.check = some text → ¬Application.Accepts text type) :
      Line options ""

theorem printed_plain {painter : Bool → Paint} (painting : Painting painter) (text : String)
    (type : OperandType) :
    printChecked (painter false) text type = type.name ++ " ; " ++ text ++ "\n" := by
  rw [printChecked, painting.bare, ← String.toList_inj]
  simp

theorem sections_plain {painter : Bool → Paint} (painting : Painting painter) (options : Options) :
    sections (painter false) options = String.join ((tables options).map Table.written) :=
  congrArg String.join (List.map_congr_left fun table _ => table.print_written painting)

namespace Leaves
variable {transcript : Transcript}

theorem line (left : Leaves tools settings options transcript) (painting : Painting tools.painter)
    (plain : settings.coloured = false) : ∃ line, Line options line ∧
      transcript.output = String.join ((tables options).map Table.written) ++ line := by
  rw [← sections_plain painting]
  cases left with
  | unchecked absent =>
    refine ⟨"", .none fun text type given => ?_, by rw [plain, String.append_empty]⟩
    rw [absent] at given
    cases given
  | typed given accepts => exact ⟨_, .typed given accepts, by rw [plain, printed_plain painting]⟩
  | failed given refused =>
    refine ⟨"", .none fun text type again accepts => ?_, by rw [plain, String.append_empty]⟩
    cases given.symm.trans again
    rw [Application.check_accepts.mpr accepts] at refused
    cases refused

theorem refused (left : Leaves tools settings options transcript) {fault : Fault}
    (given : options.check = some text) (refused : Application.check text = .error fault) :
    transcript = ⟨1, sections (tools.painter settings.coloured) options,
      "Error: " ++ fault.message ++ "\n"⟩ := by
  cases left with
  | unchecked absent =>
    rw [absent] at given
    cases given
  | typed again accepts =>
    cases given.symm.trans again
    rw [Application.check_accepts.mpr accepts] at refused
    cases refused
  | failed again other =>
    cases given.symm.trans again
    cases refused.symm.trans other
    rfl

end Leaves

end CommandLine
end MethodFrame
