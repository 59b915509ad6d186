import MethodFrame.Arguments

-- A parser of arguments that can be run. It goes from left to right, and the first fault ends it.
namespace MethodFrame
open Arguments

-- Each of the two displays ends the scan like a fault does.
inductive UsageFault where
  | unknownArgument
  | argumentConflict
  | tooManyValues
  | invalidValue
  | displayHelp
  | displayVersion
deriving DecidableEq, Repr

def UsageFault.label : UsageFault → String
  | .unknownArgument => "UnknownArgument"
  | .argumentConflict => "ArgumentConflict"
  | .tooManyValues => "TooManyValues"
  | .invalidValue => "InvalidValue"
  | .displayHelp => "DisplayHelp"
  | .displayVersion => "DisplayVersion"

inductive Argument where
  | separator
  | long (name : String) (value : Option String)
  | cluster (letters : List Char)
  | plain (text : String)
deriving DecidableEq, Repr

def Argument.ofLong (body : List Char) : Argument :=
  let name := String.ofList (body.takeWhile (· ≠ '='))
  match body.dropWhile (· ≠ '=') with
  | [] => .long name none
  | _ :: value => .long name (some (String.ofList value))

-- A lone dash and the empty text have the form of a value, not of an option.
def Argument.ofString (text : String) : Argument :=
  match text.toList with
  | ['-', '-'] => .separator
  | '-' :: '-' :: body => ofLong body
  | '-' :: letter :: letters => .cluster (letter :: letters)
  | _ => .plain text

inductive Known where
  | option (declared : Declared)
  | help
  | version
deriving DecidableEq, Repr

def Known.ofName? (declared : List Declared) (name : String) : Option Known :=
  if name = "help" then some .help
  else if name = "version" then some .version
  else (declared.find? (fun option => option.name = name)).map .option

def Known.ofLetter? (declared : List Declared) (letter : Char) : Option Known :=
  if letter = 'h' then some .help
  else if letter = 'V' then some .version
  else (declared.find? (fun option => option.letter = some letter)).map .option

inductive Pending where
  | none
  | awaited (name : String)
  | given (name text : String)
deriving DecidableEq, Repr

-- An option in two arguments takes effect only when the next known option or the end is reached. So
-- a fault in the form of a later argument wins over its conflict or its missing value.
structure Scan where
  found : List Found
  pending : Pending
deriving DecidableEq, Repr

namespace Scan

def start : Scan := ⟨[], .none⟩

def add (entry : Found) (scan : Scan) : Except UsageFault Scan :=
  if entry.name ∈ scan.found.map Found.name then .error .argumentConflict
  else .ok ⟨scan.found ++ [entry], .none⟩

def settle (scan : Scan) : Except UsageFault Scan :=
  match scan.pending with
  | .none => .ok scan
  | .awaited _ => .error .invalidValue
  | .given name text => scan.add ⟨name, some text⟩

def switch (known : Known) (scan : Scan) : Except UsageFault Scan :=
  scan.settle.bind (match known with
    | .option option =>
      if option.valued then fun settled => .ok ⟨settled.found, .awaited option.name⟩
      else add ⟨option.name, none⟩
    | .help => fun _ => .error .displayHelp
    | .version => fun _ => .error .displayVersion)

def assign (known : Known) (text : String) (scan : Scan) : Except UsageFault Scan :=
  match known with
  | .option option =>
    if option.valued then scan.settle.bind (add ⟨option.name, some text⟩)
    else .error .tooManyValues
  | _ => .error .tooManyValues

variable (declared : List Declared)

def letters : List Char → Scan → Except UsageFault Scan
  | [], scan => .ok scan
  | letter :: rest, scan => match Known.ofLetter? declared letter with
    | none => .error .unknownArgument
    | some known => (scan.switch known).bind (letters rest)

def step (argument : Argument) (scan : Scan) : Except UsageFault Scan :=
  match argument with
  | .separator => .ok scan
  | .long name value => match Known.ofName? declared name, value with
    | none, _ => .error .unknownArgument
    | some known, none => scan.switch known
    | some known, some text => scan.assign known text
  | .cluster body => letters declared body scan
  | .plain text => match scan.pending with
    | .awaited name => .ok ⟨scan.found, .given name text⟩
    | _ => .error .unknownArgument

-- Nothing may stand behind a separator.
def finish : List String → Scan → Except UsageFault Scan
  | [], scan => scan.settle
  | text :: rest, scan => match Argument.ofString text with
    | .separator => if rest = [] then scan.settle else .error .unknownArgument
    | argument => (step declared argument scan).bind (finish rest)

def read (arguments : List String) : Except UsageFault (List Found) :=
  (finish declared arguments start).map Scan.found

def parser (refusal : UsageFault → Transcript) : Parser := fun declared arguments =>
  (read declared arguments).mapError refusal

end Scan
end MethodFrame
