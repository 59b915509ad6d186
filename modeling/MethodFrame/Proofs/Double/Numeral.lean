import MethodFrame.Double.Display
import MethodFrame.Proofs.Double.Grid
import MethodFrame.Proofs.Text.Quoting

-- Numbers in plain decimal notation. A text is written by one numeral at most.
namespace MethodFrame

@[ext]
structure Numeral where
  negative : Bool
  whole : List Char
  behind : List Char
  begun : whole ≠ []
  digits : ∀ c ∈ whole ++ behind, c.isDigit = true

namespace Numeral

def tail (numeral : Numeral) : List Char :=
  if numeral.behind = [] then [] else '.' :: numeral.behind

def text (numeral : Numeral) : String :=
  (if numeral.negative then "-" else "") ++ String.ofList (numeral.whole ++ numeral.tail)

def size (numeral : Numeral) : ℚ :=
  Text.readNumber (numeral.whole ++ numeral.behind) / (Nat.pow 10 numeral.behind.length : Nat)

def number (numeral : Numeral) : ℚ := signed numeral.negative numeral.size

-- Reading rounds to the nearest double. The sign is the one that is written, also of a zero.
def ReadsAs (numeral : Numeral) (x : Double) : Prop :=
  Double.Nearest numeral.number x ∧ x.isNegative = numeral.negative

theorem size_nonneg (numeral : Numeral) : 0 ≤ numeral.size :=
  div_nonneg (Nat.cast_nonneg _) (Nat.cast_nonneg _)

theorem readsAs_exact {numeral : Numeral} {x : Double} : numeral.ReadsAs x ↔
    x.isNaN = false ∧ x.isNegative = numeral.negative ∧
      Double.Covers x.magnitude numeral.size := by
  constructor
  · rintro ⟨nearest, sign⟩
    rw [number, ← sign, Double.nearest_exact numeral.size_nonneg] at nearest
    exact ⟨nearest.1, sign, nearest.2⟩
  · rintro ⟨valid, sign, covers⟩
    rw [ReadsAs, number, ← sign, Double.nearest_exact numeral.size_nonneg]
    exact ⟨⟨valid, covers⟩, rfl⟩

theorem readsAs_unique {numeral : Numeral} {x y : Double} (reads : numeral.ReadsAs x)
    (others : numeral.ReadsAs y) : x = y := by
  obtain ⟨valid, sign, covers⟩ := readsAs_exact.mp reads
  obtain ⟨number, same, also⟩ := readsAs_exact.mp others
  exact Double.eq_of_magnitude (sign.trans same.symm) (Double.covers_unique
    (Double.isNaN_exact.mp valid) (Double.isNaN_exact.mp number) covers also)

theorem solid (numeral : Numeral) {mark : Char} (other : mark.isDigit = false) :
    mark ∉ numeral.whole ∧ mark ∉ numeral.behind := by
  rw [← not_or, ← List.mem_append]
  intro member
  rw [numeral.digits mark member] at other
  cases other

theorem text_solid (numeral : Numeral) {mark : Char} (other : mark.isDigit = false)
    (sign : mark ≠ '-') (point : mark ≠ '.') : mark ∉ numeral.text.toList := by
  have absent := numeral.solid other
  unfold text tail
  cases numeral.negative <;> split <;> simp [*]

theorem whole_ne_minus (numeral : Numeral) (behind rest : List Char) :
    numeral.whole ++ behind ≠ '-' :: rest := by
  intro same
  obtain ⟨first, more, parts⟩ := List.exists_cons_of_ne_nil numeral.begun
  rw [parts, List.cons_append, List.cons.injEq] at same
  have absent := (numeral.solid (by decide : '-'.isDigit = false)).1
  rw [parts, same.1] at absent
  exact absent List.mem_cons_self

theorem tail_unique {left right : Numeral}
    (same : left.whole ++ left.tail = right.whole ++ right.tail) :
    left.whole = right.whole ∧ left.behind = right.behind := by
  have solid := (left.solid (by decide : '.'.isDigit = false)).1
  have without := (right.solid (by decide : '.'.isDigit = false)).1
  unfold tail at same
  split at same <;> split at same
  · rename_i empty nothing
    rw [List.append_nil, List.append_nil] at same
    exact ⟨same, empty.trans nothing.symm⟩
  · rw [List.append_nil] at same
    exact absurd (by simp [same]) solid
  · rw [List.append_nil] at same
    exact absurd (by simp [← same]) without
  · exact Text.mark_unique solid without same

theorem text_injective {left right : Numeral} (same : left.text = right.text) : left = right := by
  have letters := congrArg String.toList same
  simp only [text, String.toList_append, String.toList_ofList] at letters
  have sign : left.negative = right.negative := by
    -- A minus sign on one side only would be the first digit of the other.
    cases minus : left.negative <;> cases dash : right.negative <;> rw [minus, dash] at letters
    · exact absurd (by simpa using letters) (left.whole_ne_minus left.tail _)
    · exact absurd (by simpa using letters.symm) (right.whole_ne_minus right.tail _)
  rw [sign, List.append_cancel_left_eq] at letters
  obtain ⟨whole, behind⟩ := tail_unique letters
  exact Numeral.ext sign whole behind

end Numeral

def padded (places number : Nat) : List Char :=
  List.replicate (places - (Nat.toDigits 10 number).length) '0' ++ Nat.toDigits 10 number

theorem toDigits_digits {number : Nat} {c : Char} (member : c ∈ Nat.toDigits 10 number) :
    c.isDigit = true :=
  Nat.isDigit_of_mem_toDigits (by decide) (by decide) member

theorem padded_digits {places number : Nat} {c : Char} (member : c ∈ padded places number) :
    c.isDigit = true := by
  rcases List.mem_append.mp member with zero | digit
  · rw [List.eq_of_mem_replicate zero]
    decide
  · exact toDigits_digits digit

theorem length_padded {places number : Nat} (positive : 0 < places)
    (within : number < Nat.pow 10 places) : (padded places number).length = places := by
  have short := (Nat.length_toDigits_le_iff (by decide : 1 < 10) positive).mpr within
  rw [padded, List.length_append, List.length_replicate, Nat.sub_add_cancel short]

theorem readNumber_padded {places number : Nat} (positive : 0 < places)
    (within : number < Nat.pow 10 places) (whole : Nat) :
    Text.readNumber (Nat.toDigits 10 whole ++ padded places number) =
      whole * Nat.pow 10 places + number := by
  have length := length_padded positive within
  rw [Text.readNumber, Nat.ofDigitChars_append, Nat.ofDigitChars_eq_ofDigitChars_zero, length,
    Nat.ofDigitChars_ten_toDigits, padded, Nat.ofDigitChars_append, Nat.ofDigitChars_replicate_zero,
    Nat.mul_zero, Nat.ofDigitChars_ten_toDigits, Nat.mul_comm, Nat.pow_eq]

namespace Numeral

def ofWhole (negative : Bool) (number : Nat) : Numeral where
  negative := negative
  whole := Nat.toDigits 10 number
  behind := []
  begun := Nat.toDigits_ne_nil
  digits := by
    intro c member
    rw [List.append_nil] at member
    exact toDigits_digits member

def ofPoint (negative : Bool) (places number : Nat) : Numeral where
  negative := negative
  whole := Nat.toDigits 10 (number / Nat.pow 10 places)
  behind := padded places (number % Nat.pow 10 places)
  begun := Nat.toDigits_ne_nil
  digits := by
    intro c member
    exact (List.mem_append.mp member).elim toDigits_digits padded_digits

theorem ofWhole_size (negative : Bool) (number : Nat) :
    (ofWhole negative number).size = number := by
  simp [size, ofWhole, Text.readNumber, Nat.ofDigitChars_ten_toDigits]

theorem remainder_lt (places number : Nat) : number % Nat.pow 10 places < Nat.pow 10 places :=
  Nat.mod_lt _ (Nat.pow_pos (by decide))

theorem ofPoint_size (negative : Bool) {places : Nat} (positive : 0 < places) (number : Nat) :
    (ofPoint negative places number).size = number / (Nat.pow 10 places : Nat) := by
  have within := remainder_lt places number
  simp only [size, ofPoint, length_padded positive within, readNumber_padded positive within]
  rw [Nat.div_add_mod']

end Numeral

namespace Decimal

def numeral (negative : Bool) (decimal : Decimal) : Numeral :=
  if 1074 ≤ decimal.place then
    .ofWhole negative (decimal.digits * Nat.pow 10 (decimal.place - 1074))
  else .ofPoint negative (1074 - decimal.place) decimal.digits

theorem numeral_negative (negative : Bool) (decimal : Decimal) :
    (decimal.numeral negative).negative = negative := by
  unfold numeral
  split <;> rfl

theorem numeral_size (negative : Bool) (decimal : Decimal) :
    (decimal.numeral negative).size = decimal.size := by
  have one : Nat.pow 10 0 = 1 := rfl
  unfold numeral
  rw [finest_eq]
  split
  · rename_i coarse
    have point := spans_point decimal.digits (Nat.zero_le (decimal.place - finest + finest))
    rw [Nat.sub_zero, Nat.sub_add_cancel coarse, one, Nat.cast_one, div_one] at point
    rw [Numeral.ofWhole_size, point]
  · rename_i fine
    have within : finest - decimal.place ≤ 0 + finest := by omega
    have place : 0 + finest - (finest - decimal.place) = decimal.place := by omega
    have point := spans_point decimal.digits within
    rw [place, one, Nat.mul_one] at point
    rw [Numeral.ofPoint_size negative (Nat.sub_pos_of_lt (Nat.lt_of_not_le fine)), point]

theorem numeral_text (negative : Bool) (decimal : Decimal) :
    (decimal.numeral negative).text = (if negative then "-" else "") ++ decimal.display := by
  unfold numeral display
  split
  · rw [Numeral.text, Numeral.tail, Numeral.ofWhole, if_pos rfl, List.append_nil,
      Nat.repr_eq_ofList_toDigits]
  · rename_i fine
    have positive := Nat.sub_pos_of_lt (Nat.lt_of_not_le fine)
    have length := length_padded positive (Numeral.remainder_lt (1074 - decimal.place) decimal.digits)
    rw [Numeral.text, Numeral.tail, Numeral.ofPoint,
      if_neg (List.ne_nil_of_length_pos (by rwa [length]))]
    apply String.toList_inj.mp
    simp [padded, Nat.repr_eq_ofList_toDigits]

end Decimal
end MethodFrame
