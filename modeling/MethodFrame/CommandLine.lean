import MethodFrame.Application
import MethodFrame.Journal
import MethodFrame.Options

-- A run of the command line, given the settings of the environment and the tools it works with.
namespace MethodFrame

structure Settings where
  coloured : Bool := false
  logLevel : Option String := none
deriving DecidableEq, Repr

-- The levels are the one that the program sets, the one that the environment names if any, and the
-- one of the record.
structure Logger where
  admits : Level → Option String → Level → Bool
  line : Level → String → String

structure Toolkit where
  parser : Arguments.Parser
  painter : Bool → Paint
  logger : Logger

namespace CommandLine

def notice : String := "no table selected, printing everything"

def preset (options : Options) : Level := if options.verbose then .debug else .warn

def tables (options : Options) : List Table :=
  Table.all.filter (fun table => options.printsNothing || options.selects table)

def logged (logger : Logger) (settings : Settings) (options : Options) : String :=
  if options.printsNothing && logger.admits (preset options) settings.logLevel .debug then
    logger.line .debug notice
  else ""

-- A failing check comes after the tables and keeps them.
def execute (tools : Toolkit) (settings : Settings) (options : Options) : Transcript :=
  let paint := tools.painter settings.coloured
  let printed := String.join ((tables options).map (Table.print paint))
  let log := logged tools.logger settings options
  match options.check with
  | none => ⟨0, printed, log⟩
  | some text => match Application.check text with
    | .ok type => ⟨0, printed ++ printChecked paint text type, log⟩
    | .error fault => ⟨1, printed, log ++ "Error: " ++ fault.message ++ "\n"⟩

def run (tools : Toolkit) (settings : Settings) (arguments : List String) : Transcript :=
  match Options.read tools.parser arguments with
  | .ok options => execute tools settings options
  | .error refusal => refusal

end CommandLine
end MethodFrame
