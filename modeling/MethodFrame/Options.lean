import MethodFrame.Arguments
import MethodFrame.Report

-- The command line options: what is declared, and the record that is read off what was found.
namespace MethodFrame

structure Options where
  types : Bool := false
  operators : Bool := false
  commands : Bool := false
  limits : Bool := false
  check : Option String := none
  verbose : Bool := false
deriving DecidableEq, Repr

namespace Options
open Arguments

def declared : List Declared :=
  [{ name := "types" }, { name := "operators" }, { name := "commands" }, { name := "limits" },
    { name := "check", valued := true }, { name := "verbose", letter := some 'v' }]

def given (found : List Found) (name : String) : Bool := found.any (fun entry => entry.name = name)

def ofFound (found : List Found) : Options where
  types := given found "types"
  operators := given found "operators"
  commands := given found "commands"
  limits := given found "limits"
  check := (found.find? (fun entry => entry.name = "check")).bind Found.value
  verbose := given found "verbose"

def read (parser : Parser) (arguments : List String) : Except Transcript Options :=
  (parser declared arguments).map ofFound

def selects (options : Options) : Table → Bool
  | .types => options.types
  | .operators => options.operators
  | .commands => options.commands
  | .limits => options.limits

def printsNothing (options : Options) : Bool :=
  Table.all.all (fun table => !options.selects table) && options.check.isNone

end Options
end MethodFrame
