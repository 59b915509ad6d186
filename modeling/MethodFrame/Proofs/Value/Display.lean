import MethodFrame.Proofs.Double.Numeral
import MethodFrame.Value

-- The text of a value, which together with the type says what the value is. For a finite float the
-- text is a numeral that rounds to this float alone, and no decimal of fewer digits does so.
namespace MethodFrame

namespace Numeral

def ofInteger (number : Int) : Numeral := .ofWhole (decide (number < 0)) number.natAbs

theorem ofInteger_text (number : Int) : (ofInteger number).text = number.repr := by
  unfold ofInteger text tail ofWhole
  cases number with
  | ofNat size => simp [Int.repr, Nat.repr_eq_ofList_toDigits]
  | negSucc size => simp [Int.repr, Nat.repr_eq_ofList_toDigits, Int.negSucc_lt_zero]

theorem integer_unique {number other : Int} (same : number.repr = other.repr) : number = other := by
  rw [← ofInteger_text number, ← ofInteger_text other] at same
  have numeral := text_injective same
  have sign : decide (number < 0) = decide (other < 0) := congrArg negative numeral
  have size := Text.digits_injective (by decide) (by decide) (congrArg whole numeral)
  rw [decide_eq_decide] at sign
  omega

end Numeral

namespace Double

theorem display_eq {x : Double} (number : x.isNaN = false) :
    x.display = (if x.isNegative then "-" else "") ++ x.magnitudeText := by
  rw [display, number]
  cases x.isNegative <;> simp

theorem display_infinite {x : Double} (infinite : x.isInfinite = true) :
    x.display = (if x.isNegative then "-" else "") ++ "inf" := by
  have number : x.isNaN = false := isNaN_exact.mpr (isInfinite_exact.mp infinite).le
  rw [display_eq number, magnitudeText, infinite]
  rfl

theorem display_zero {x : Double} (number : x.isNaN = false) (finite : x.isInfinite = false)
    (zero : x.isZero = true) : x.display = (Numeral.ofWhole x.isNegative 0).text := by
  rw [display_eq number, magnitudeText, finite, zero]
  rfl

theorem display_shortest {x : Double} (number : x.isNaN = false) (finite : x.isInfinite = false)
    (nonzero : x.isZero = false) {decimal : Decimal} (found : x.shortest = some decimal) :
    x.display = (decimal.numeral x.isNegative).text := by
  rw [display_eq number, magnitudeText, finite, nonzero, found, Decimal.numeral_text]
  rfl

theorem magnitude_finite {x : Double} (number : x.isNaN = false) (finite : x.isInfinite = false) :
    x.magnitude < top := by
  refine Nat.lt_of_le_of_ne (isNaN_exact.mp number) fun last => ?_
  rw [isInfinite_exact.mpr last] at finite
  cases finite

theorem magnitude_nonzero {x : Double} (nonzero : x.isZero = false) : x.magnitude ≠ 0 := by
  intro zero
  rw [isZero_magnitude.mpr zero] at nonzero
  cases nonzero

-- A numeral that is the text of a number, reads back, and has as few digits as any that does.
structure Writes (x : Double) (numeral : Numeral) : Prop where
  text : x.display = numeral.text
  reads : numeral.ReadsAs x
  fewest : ∀ (other : Numeral) (count : Nat), other.ReadsAs x → Spans count other.size →
    Spans count numeral.size

theorem writes_zero {x : Double} (number : x.isNaN = false) (finite : x.isInfinite = false)
    (zero : x.isZero = true) : x.Writes (.ofWhole x.isNegative 0) := by
  have size : (Numeral.ofWhole x.isNegative 0).size = 0 := by
    rw [Numeral.ofWhole_size, Nat.cast_zero]
  refine ⟨display_zero number finite zero, Numeral.readsAs_exact.mpr ⟨number, rfl, ?_⟩, ?_⟩
  · rw [size, isZero_magnitude.mp zero, ← sizeAt_zero]
    exact covers_exact 0
  · intro other count _ _
    rw [size]
    exact spans_zero count

theorem writes_shortest {x : Double} (number : x.isNaN = false) (finite : x.isInfinite = false)
    (nonzero : x.isZero = false) : ∃ numeral, x.Writes numeral := by
  have positive := magnitude_nonzero nonzero
  obtain ⟨decimal, found, best, coarsest⟩ := shortest_exact positive (magnitude_finite number finite)
  have size := decimal.numeral_size x.isNegative
  refine ⟨decimal.numeral x.isNegative, display_shortest number finite nonzero found,
    Numeral.readsAs_exact.mpr ⟨number, (decimal.numeral_negative _).symm, ?_⟩, ?_⟩
  · rw [size]
    exact best.covered
  · intro other count reads spans
    rw [size]
    exact coarsest_spans positive best.covered coarsest (Numeral.readsAs_exact.mp reads).2.2 spans

theorem display_finite {x : Double} (number : x.isNaN = false) (finite : x.isInfinite = false) :
    ∃ numeral, x.Writes numeral := by
  cases zero : x.isZero with
  | true => exact ⟨_, writes_zero number finite zero⟩
  | false => exact writes_shortest number finite zero

theorem display_unlike {x : Double} (infinite : x.isInfinite = true) (numeral : Numeral) :
    x.display ≠ numeral.text := by
  intro same
  refine numeral.text_solid (by decide : 'n'.isDigit = false) (by decide) (by decide) ?_
  rw [← same, display_infinite infinite]
  simp

theorem infinite_unique {x y : Double} (infinite : x.isInfinite = true)
    (also : y.isInfinite = true) (same : x.display = y.display) : x = y := by
  rw [display_infinite infinite, display_infinite also, String.append_left_inj] at same
  have sign : x.isNegative = y.isNegative := by
    cases minus : x.isNegative <;> cases dash : y.isNegative <;> simp [minus, dash] at same ⊢
  exact eq_of_magnitude sign ((isInfinite_exact.mp infinite).trans (isInfinite_exact.mp also).symm)

theorem display_injective {x y : Double} (number : x.isNaN = false) (also : y.isNaN = false)
    (same : x.display = y.display) : x = y := by
  cases left : x.isInfinite with
  | true =>
    cases right : y.isInfinite with
    | true => exact infinite_unique left right same
    | false =>
      obtain ⟨numeral, writes⟩ := display_finite also right
      exact absurd (same.trans writes.text) (display_unlike left numeral)
  | false =>
    obtain ⟨numeral, writes⟩ := display_finite number left
    cases right : y.isInfinite with
    | true => exact absurd (same.symm.trans writes.text) (display_unlike right numeral)
    | false =>
      obtain ⟨other, others⟩ := display_finite also right
      have equal := Numeral.text_injective (writes.text.symm.trans (same.trans others.text))
      exact Numeral.readsAs_unique writes.reads (equal ▸ others.reads)

end Double

namespace Value

def isNaN : Value → Bool
  | .float payload => payload.isNaN
  | _ => false

theorem display_injective {left right : Value} (alike : left.type = right.type)
    (number : left.isNaN = false) (also : right.isNaN = false)
    (same : left.display = right.display) : left = right := by
  cases left <;> cases right <;> cases alike
  case void.void => rfl
  case int.int => rw [Int32.toInt_inj.mp (Numeral.integer_unique same)]
  case float.float => rw [Double.display_injective number also same]
  case string.string =>
    simp only [display, String.append_left_inj, String.append_right_inj] at same
    rw [same]
  case strongInt.strongInt => rw [Int32.toInt_inj.mp (Numeral.integer_unique same)]

theorem display_determines :
    (∀ left right : Value, left.type = right.type → left.isNaN = false → right.isNaN = false →
      (left.display = right.display ↔ left = right)) ∧
    ∀ x : Double, x.isNaN = false → x.isInfinite = false → ∃ numeral : Numeral,
      (Value.float x).display = numeral.text ∧
      (∀ y, numeral.ReadsAs y ↔ y = x) ∧
      ∀ (other : Numeral) (count : Nat), other.ReadsAs x → Spans count other.size →
        Spans count numeral.size := by
  constructor
  · intro left right alike number also
    exact ⟨display_injective alike number also, fun same => by rw [same]⟩
  · intro x number finite
    obtain ⟨numeral, writes⟩ := Double.display_finite number finite
    refine ⟨numeral, writes.text, fun y => ⟨fun reads => ?_, fun same => ?_⟩, writes.fewest⟩
    · exact Numeral.readsAs_unique reads writes.reads
    · rw [same]
      exact writes.reads

-- Two floats next to each other, the nearest to 0.3 and the sum of 0.1 and 0.2.
theorem display_determines_neighbours :
    (Value.float ⟨0x3fd3333333333333⟩).isNaN = false ∧
    (Value.float ⟨0x3fd3333333333334⟩).isNaN = false ∧
    (Value.float ⟨0x3fd3333333333333⟩).display ≠ (Value.float ⟨0x3fd3333333333334⟩).display ∧
    (⟨0x3fd3333333333334⟩ : Double).isInfinite = false ∧
    ∃ numeral : Numeral, (Value.float ⟨0x3fd3333333333334⟩).display = numeral.text ∧
      ∀ y, numeral.ReadsAs y ↔ y = ⟨0x3fd3333333333334⟩ := by
  refine ⟨by decide, by decide, fun same => ?_, by decide, ?_⟩
  · have equal := (display_determines.1 (.float ⟨0x3fd3333333333333⟩) (.float ⟨0x3fd3333333333334⟩)
      rfl (by decide) (by decide)).mp same
    revert equal
    decide
  · obtain ⟨numeral, text, reads, -⟩ :=
      display_determines.2 ⟨0x3fd3333333333334⟩ (by decide) (by decide)
    exact ⟨numeral, text, reads⟩

example : (Value.float ⟨0x3fd3333333333334⟩).display = "0.30000000000000004" := by decide +kernel

example : (Value.float ⟨0x8000000000000000⟩).display = "-0" := by decide +kernel

end Value
end MethodFrame
