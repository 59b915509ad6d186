import MethodFrame.CommandLine
import MethodFrame.Scanner

-- The tools that the program runs with.
namespace MethodFrame

def versionLine : String := "jasminc 0.1.0\n"

def helpText : String :=
  "Semantic vocabulary of the Jasmin code generator\n\n" ++
  "Usage: jasminc [OPTIONS]\n\n" ++
  "Options:\n" ++
  "      --types          Print the semantic types\n" ++
  "      --operators      Print the operators\n" ++
  "      --commands       Print the Jasmin command states\n" ++
  "      --limits         Print the `.limit` directives of a method\n" ++
  "      --check <CHECK>  Type-check an operator application, " ++
  "e.g. \"int + float\" or \"! strong int\"\n" ++
  "  -v, --verbose\n" ++
  "  -h, --help           Print help\n" ++
  "  -V, --version        Print version\n"

def UsageFault.transcript : UsageFault → Transcript
  | .displayHelp => ⟨0, helpText, ""⟩
  | .displayVersion => ⟨0, versionLine, ""⟩
  | fault => ⟨2, "", "error: " ++ fault.label ++ "\n"⟩

namespace Style

def start : Style → String
  | .red => "\x1b[31m"
  | .dimmed => "\x1b[2m"

def reset : String := "\x1b[0m"

-- A text that resets the style inside is brought back to it behind each reset.
def resumed (mark : List Char) : List Char → List Char
  | '\x1b' :: '[' :: '0' :: 'm' :: rest => reset.toList ++ mark ++ resumed mark rest
  | c :: rest => c :: resumed mark rest
  | [] => []

def terminal (coloured : Bool) (style : Style) (text : String) : String :=
  if coloured then style.start ++ String.ofList (resumed style.start.toList text.toList) ++ reset
  else text

end Style

namespace Logger

-- Levels are named in any mix of cases; `off` is the name of no level.
def mostOf? (name : String) : Option (Option Level) :=
  match name.toUpper with
  | "OFF" => some none
  | "ERROR" => some (some .error)
  | "WARN" => some (some .warn)
  | "INFO" => some (some .info)
  | "DEBUG" => some (some .debug)
  | "TRACE" => some (some .trace)
  | _ => none

def stamped (time : String) : Logger where
  admits preset wanted level :=
    match (wanted.bind mostOf?).getD (some preset) with
    | some most => level.rank ≤ most.rank
    | none => false
  line level message := "[" ++ time ++ level.name ++ " jasminc] " ++ message ++ "\n"

end Logger

def Toolkit.timed (time : String) : Toolkit where
  parser := Scan.parser UsageFault.transcript
  painter := Style.terminal
  logger := .stamped time

-- The time of a record is left out, so that a run depends on its arguments and settings alone.
def Toolkit.standard : Toolkit := .timed ""

end MethodFrame
