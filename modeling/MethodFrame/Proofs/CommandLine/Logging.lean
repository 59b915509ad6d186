import MethodFrame.Proofs.CommandLine.Output

-- What is logged stays apart from what is answered: the level and the verbosity that ask for it
-- decide on one line of the error stream, in runs that do not fail.
namespace MethodFrame

namespace CommandLine
variable {tools twins : Toolkit} {logger : Logger} {settings other : Settings}
  {options changed : Options}

def Alike (one other : Transcript) : Prop :=
  one.output = other.output ∧ one.exit = other.exit ∧ (one.exit = 1 → one.errors = other.errors)

inductive Toggled : List String → List String → Prop where
  | same (arguments : List String) : Toggled arguments arguments
  | added {text : String} (verbose : text = "-v" ∨ text = "--verbose") (before after : List String) :
      Toggled (before ++ after) (before ++ text :: after)
  | removed {text : String} (verbose : text = "-v" ∨ text = "--verbose")
      (before after : List String) : Toggled (before ++ text :: after) (before ++ after)

theorem verbose_spelling {text : String} (verbose : text = "-v" ∨ text = "--verbose") :
    (Item.flag .verbose).Spelling [text] := by
  rcases verbose with rfl | rfl
  · exact .short
  · exact .long .verbose

theorem Toggled.quiet {parser : Arguments.Parser}
    (regular : Arguments.Regular parser Options.declared) {arguments others : List String}
    (toggled : Toggled arguments others) (accepted : Options.read parser arguments = .ok options)
    (again : Options.read parser others = .ok changed) :
    { options with verbose := false } = { changed with verbose := false } := by
  cases toggled with
  | same =>
    cases accepted.symm.trans again
    rfl
  | added verbose before after =>
    cases accepted.symm.trans (Options.read_quieter regular (verbose_spelling verbose) again)
    rfl
  | removed verbose before after =>
    cases again.symm.trans (Options.read_quieter regular (verbose_spelling verbose) accepted)
    rfl

end CommandLine
end MethodFrame
