-- A text between double quotes, with the quote, the backslash and control characters escaped.
namespace MethodFrame.Text

def codeEscape (c : Char) : List Char :=
  "\\u\x7b".toList ++ Nat.toDigits 16 c.toNat ++ ['\x7d']

def shortForms : List (Char × Char) :=
  [('"', '"'), ('\\', '\\'), ('\n', 'n'), ('\r', 'r'), ('\t', 't'), ('\x00', '0')]

-- The class `coded` says which characters without a short form are written by their code point.
def escape (coded : Char → Bool) (c : Char) : List Char :=
  match shortForms.lookup c with
  | some letter => ['\\', letter]
  | none => if coded c then codeEscape c else [c]

def quotedWith (coded : Char → Bool) (text : String) : String :=
  "\"" ++ String.ofList (text.toList.flatMap (escape coded)) ++ "\""

-- A printer may write more characters by their code point than these: U+00AD, U+0300 and U+200B,
-- say. Messages and dumps tell faults apart for every such class.
def isControl (c : Char) : Bool := c.toNat < 0x20 || (0x7F ≤ c.toNat && c.toNat ≤ 0x9F)

def quoted (text : String) : String := quotedWith isControl text

end MethodFrame.Text
