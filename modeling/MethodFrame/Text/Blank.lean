-- Words between blanks. Runs of blanks of any kind and length separate alike.
namespace MethodFrame.Text

-- The class White_Space: 25 code points.
def isBlank (c : Char) : Bool :=
  let code := c.toNat
  (9 ≤ code && code ≤ 13) || code == 0x20 || code == 0x85 || code == 0xA0 || code == 0x1680 ||
    (0x2000 ≤ code && code ≤ 0x200A) || code == 0x2028 || code == 0x2029 || code == 0x202F ||
    code == 0x205F || code == 0x3000

def close (word : List Char) (later : List (List Char)) : List (List Char) :=
  if word = [] then later else word :: later

-- The first part is what stands before the first blank. It stays open, so that
-- a letter in front of the text joins it; the other words are complete.
def cut : List Char → List Char × List (List Char)
  | [] => ([], [])
  | c :: rest =>
    let later := cut rest
    if isBlank c then ([], close later.1 later.2) else (c :: later.1, later.2)

def runs (text : List Char) : List (List Char) :=
  close (cut text).1 (cut text).2

def words (text : String) : List String :=
  (runs text.toList).map String.ofList

def joined (parts : List String) : String := " ".intercalate parts

theorem runs_blank {c : Char} {text : List Char} (blank : isBlank c = true) :
    runs (c :: text) = runs text := by
  simp [runs, cut, blank, close]

theorem cut_append {word text : List Char} (solid : ∀ c ∈ word, isBlank c = false) :
    cut (word ++ text) = (word ++ (cut text).1, (cut text).2) := by
  induction word with
  | nil => rfl
  | cons c rest ih =>
    have first := solid c List.mem_cons_self
    have others := ih (fun d member => solid d (List.mem_cons_of_mem _ member))
    simp [cut, first, others]

theorem runs_word {word text : List Char} {c : Char} (some_letter : word ≠ [])
    (solid : ∀ d ∈ word, isBlank d = false) (blank : isBlank c = true) :
    runs (word ++ c :: text) = word :: runs text := by
  simp [runs, cut_append solid, cut, blank, close, some_letter]

theorem runs_single {word : List Char} (some_letter : word ≠ [])
    (solid : ∀ d ∈ word, isBlank d = false) : runs word = [word] := by
  have parts := @cut_append word [] solid
  rw [List.append_nil] at parts
  simp [runs, parts, cut, close, some_letter]

end MethodFrame.Text
