import MethodFrame.Shell

namespace MethodFrame.CommandLine

-- Output is coloured when colours are forced, else not when they are refused, and
-- else when the output is a terminal whose colours are not switched off. A forcing
-- or switching variable counts as on unless its text is `0`.
def wantsColour (forced refused switched : Option String) (terminal : Bool) : Bool :=
  forced.any (· ≠ "0") || (refused.isNone && terminal && switched.all (· ≠ "0"))

def perform (arguments : List String) : IO UInt32 := do
  let output ← IO.getStdout
  let errors ← IO.getStderr
  let coloured := wantsColour (← IO.getEnv "CLICOLOR_FORCE") (← IO.getEnv "NO_COLOR")
    (← IO.getEnv "CLICOLOR") (← output.isTty)
  let transcript := run .standard ⟨coloured, ← IO.getEnv "RUST_LOG"⟩ arguments
  output.putStr transcript.output
  output.flush
  errors.putStr transcript.errors
  errors.flush
  return UInt32.ofNat transcript.exit

end MethodFrame.CommandLine

def main (arguments : List String) : IO UInt32 :=
  MethodFrame.CommandLine.perform arguments
