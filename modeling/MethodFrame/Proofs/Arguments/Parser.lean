import MethodFrame.Arguments

-- What is relied on of a parser. Each rule is about the first argument alone, for any options that
-- are declared; which lists are accepted is left to be derived.
namespace MethodFrame.Arguments

-- The texts that can be the value of an option in an argument of their own.
def IsValue (text : String) : Prop := text = "-" ∨ text.toList.head? ≠ some '-'

instance (text : String) : Decidable (IsValue text) := inferInstanceAs (Decidable (_ ∨ _))

-- Help and version have names and letters of their own.
structure Proper (declared : List Declared) : Prop where
  names : ("help" :: "version" :: declared.map Declared.name).Nodup
  carried : ∀ option ∈ declared, option.name ≠ "" ∧ '=' ∉ option.name.toList
  letters : ∀ letter ∈ declared.filterMap Declared.letter, letter ∉ ['h', 'V', '-']
  lettered : ∀ option ∈ declared, option.letter.isSome = true → option.valued = false ∧
    ∀ other ∈ declared, other.letter = option.letter → other = option

inductive Declared.Calls (option : Declared) : String → Prop where
  | long : Calls option ("--" ++ option.name)
  | short {letter : Char} (carried : option.letter = some letter) :
      Calls option (String.ofList ['-', letter])

def assignment (name value : String) : String := "--" ++ name ++ "=" ++ value

variable (parser : Parser) (declared : List Declared)

def Refuses (arguments : List String) : Prop := ∀ found, parser declared arguments ≠ .ok found

-- An entry is found in front of what the rest gives, unless the rest gives its option again.
def Adds (entry : Found) (rest : List String) (found : List Found) : Prop :=
  ∃ others, parser declared rest = .ok others ∧ entry.name ∉ others.map Found.name ∧
    found = entry :: others

structure Regular : Prop where
  nothing : parser declared [] = .ok []
  -- A separator may close the arguments, and no argument stands for itself.
  closed : parser declared ["--"] = .ok []
  behind : ∀ text rest, Refuses parser declared ("--" :: text :: rest)
  stray : ∀ {text}, IsValue text → ∀ rest, Refuses parser declared (text :: rest)
  flag : ∀ {option}, option ∈ declared → option.valued = false → ∀ {text}, option.Calls text →
    ∀ rest found, parser declared (text :: rest) = .ok found ↔
      Adds parser declared ⟨option.name, none⟩ rest found
  assigned : ∀ {option}, option ∈ declared → option.valued = false → ∀ value rest,
    Refuses parser declared (assignment option.name value :: rest)
  joined : ∀ {option}, option ∈ declared → option.valued = true → ∀ value rest found,
    parser declared (assignment option.name value :: rest) = .ok found ↔
      Adds parser declared ⟨option.name, some value⟩ rest found
  apart : ∀ {option}, option ∈ declared → option.valued = true → ∀ {value}, IsValue value →
    ∀ rest found, parser declared (("--" ++ option.name) :: value :: rest) = .ok found ↔
      Adds parser declared ⟨option.name, some value⟩ rest found
  -- What does not have the form of a value is not taken for one.
  awaited : ∀ {option}, option ∈ declared → option.valued = true → ∀ {rest},
    (∀ value ∈ rest.head?, ¬IsValue value) →
      Refuses parser declared (("--" ++ option.name) :: rest)
  -- Names are known in full and in their own case only.
  unnamed : ∀ {name}, '=' ∉ name.toList → name ∉ declared.map Declared.name →
    (name ≠ "" → ∀ rest, Refuses parser declared (("--" ++ name) :: rest)) ∧
    ∀ value rest, Refuses parser declared (assignment name value :: rest)
  unlettered : ∀ {letters}, letters.head? ≠ some '-' → ∀ letter ∈ letters,
    letter ∉ declared.filterMap Declared.letter → ∀ rest,
      Refuses parser declared (String.ofList ('-' :: letters) :: rest)
  -- Letters behind one dash are the letters behind a dash each.
  cluster : ∀ {first second others}, (∀ letter ∈ first :: second :: others,
      letter ∈ declared.filterMap Declared.letter) → ∀ rest found,
    parser declared (String.ofList ('-' :: first :: second :: others) :: rest) = .ok found ↔
      parser declared (String.ofList ['-', first] :: String.ofList ('-' :: second :: others) ::
        rest) = .ok found

def Lawful : Prop := ∀ declared, Proper declared → Regular parser declared

end MethodFrame.Arguments
