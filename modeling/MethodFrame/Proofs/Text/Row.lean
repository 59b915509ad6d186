import MethodFrame.Proofs.Text.Quoting

-- Texts that are fixed but for their fields. Two texts of one form agree in every field as soon as
-- they are equal, when each field but the last can be told from the words behind it.
namespace MethodFrame.Text

inductive Field where
  | quoted (text : String)
  | numeral (number : Nat)
  | word (text : String)

namespace Field

def written (quote : String → String) : Field → String
  | .quoted text => quote text
  | .numeral number => number.repr
  | .word text => text

def form : Field → Field
  | .quoted _ => .quoted ""
  | .numeral _ => .numeral 0
  | .word _ => .word ""

def EndsAt (mark : Char) : Field → Prop
  | .quoted _ => True
  | .numeral _ => mark.isDigit = false
  | .word text => mark ∉ text.toList

variable {quote : String → String} {one other : Field}

theorem written_injective (delimits : Delimits quote) (alike : one.form = other.form)
    (same : one.written quote = other.written quote) : one = other := by
  cases one with
  | quoted text =>
    cases other with
    | quoted twin => exact congrArg quoted (delimits.injective same)
    | _ => cases alike
  | numeral number =>
    cases other with
    | numeral twin => exact congrArg numeral (decimal_injective same)
    | _ => cases alike
  | word text =>
    cases other with
    | word twin => exact congrArg word same
    | _ => cases alike

theorem written_unique (delimits : Delimits quote) (alike : one.form = other.form) {mark : Char}
    (ends : one.EndsAt mark) (stops : other.EndsAt mark) {behind beyond : List Char}
    (same : (one.written quote).toList ++ mark :: behind =
      (other.written quote).toList ++ mark :: beyond) : one = other ∧ behind = beyond := by
  cases one with
  | quoted text =>
    cases other with
    | quoted twin =>
      obtain ⟨rfl, rest⟩ := delimits _ _ _ _ same
      exact ⟨rfl, (List.cons.inj rest).2⟩
    | _ => cases alike
  | numeral number =>
    cases other with
    | numeral twin =>
      simp only [written, Nat.toList_repr] at same
      obtain ⟨rfl, rest⟩ := decimal_unique ends same
      exact ⟨rfl, rest⟩
    | _ => cases alike
  | word text =>
    cases other with
    | word twin =>
      obtain ⟨letters, rest⟩ := mark_unique ends stops same
      exact ⟨congrArg word (String.toList_inj.mp letters), rest⟩
    | _ => cases alike

end Field

def row (quote : String → String) : List (Field × String) → String
  | [] => ""
  | (field, words) :: rest => field.written quote ++ words ++ row quote rest

theorem row_letters (quote : String → String) (field : Field) (words : String)
    (rest : List (Field × String)) : (row quote ((field, words) :: rest)).toList =
      (field.written quote).toList ++ (words.toList ++ (row quote rest).toList) := by
  simp only [row, String.toList_append, List.append_assoc]

def rowForm (fields : List (Field × String)) : List (Field × String) :=
  fields.map (fun entry => (entry.1.form, entry.2))

def Separable : List (Field × String) → Prop
  | (field, words) :: next :: rest =>
    (∃ mark behind, words.toList = mark :: behind ∧ field.EndsAt mark) ∧ Separable (next :: rest)
  | _ => True

theorem row_unique {quote : String → String} (delimits : Delimits quote)
    {fields others : List (Field × String)} (alike : rowForm fields = rowForm others)
    (separable : Separable fields) (split : Separable others)
    (same : row quote fields = row quote others) : fields = others := by
  induction fields generalizing others with
  | nil => exact (List.map_eq_nil_iff.mp alike.symm).symm
  | cons first rest ih =>
    cases others with
    | nil => cases alike
    | cons second others =>
      obtain ⟨field, words⟩ := first
      obtain ⟨other, speech⟩ := second
      obtain ⟨form, further⟩ := List.cons.inj alike
      obtain ⟨kind, rfl⟩ : field.form = other.form ∧ words = speech := Prod.mk.inj form
      cases rest with
      | nil =>
        cases List.map_eq_nil_iff.mp further.symm
        simp only [row, String.append_empty, String.append_left_inj] at same
        rw [Field.written_injective delimits kind same]
      | cons next rest =>
        obtain ⟨third, last, rfl, _⟩ := List.map_eq_cons_iff.mp further.symm
        obtain ⟨⟨mark, behind, opens, ends⟩, separable⟩ := separable
        obtain ⟨⟨sign, beyond, begins, stops⟩, split⟩ := split
        cases opens.symm.trans begins
        have letters := congrArg String.toList same
        rw [row_letters _ field, row_letters _ other, opens] at letters
        obtain ⟨rfl, rows⟩ := Field.written_unique delimits kind ends stops letters
        have later := String.toList_inj.mp (List.append_cancel_left rows)
        rw [ih further separable split later]

end MethodFrame.Text
