import Mathlib.Order.Monotone.Basic
import MethodFrame.Double.Shortest

-- The words of doubles as points of one scale. Without its sign a word counts the doubles below it,
-- and from one point of the scale to the next it is as far as the gap that the lower one states.
namespace MethodFrame.Double

def magnitude (x : Double) : Nat := x.bits.toNat % Nat.pow 2 63

def top : Nat := 2047 * Nat.pow 2 52

def ofMagnitude (negative : Bool) (word : Nat) : Double :=
  ⟨UInt64.ofNat ((if negative then Nat.pow 2 63 else 0) + word)⟩

-- The steps at `top` are the power of two that follows the largest finite number.
def gapAt (word : Nat) : Nat := Nat.pow 2 (word / Nat.pow 2 52 - 1)

def stepsAt (word : Nat) : Nat :=
  (if word / Nat.pow 2 52 = 0 then word % Nat.pow 2 52
    else Nat.pow 2 52 + word % Nat.pow 2 52) * gapAt word

theorem exponentField_eq (x : Double) : x.exponentField = x.magnitude / Nat.pow 2 52 := by
  simp only [exponentField, magnitude, Nat.pow_eq]
  omega

theorem fraction_eq (x : Double) : x.fraction = x.magnitude % Nat.pow 2 52 := by
  simp only [fraction, magnitude, Nat.pow_eq]
  omega

theorem gap_eq (x : Double) : x.gap = gapAt x.magnitude := by
  rw [gap, exponentField_eq, gapAt]

theorem steps_eq (x : Double) : x.steps = stepsAt x.magnitude := by
  rw [steps, significand, gap_eq, fraction_eq, exponentField_eq, stepsAt]

theorem significand_parity (x : Double) : x.significand % 2 = x.magnitude % 2 := by
  rw [significand, fraction_eq, exponentField_eq]
  simp only [Nat.pow_eq]
  split <;> omega

theorem isNaN_exact {x : Double} : x.isNaN = false ↔ x.magnitude ≤ top := by
  have bounded : x.magnitude < Nat.pow 2 63 := Nat.mod_lt _ (by decide)
  simp only [Nat.pow_eq] at bounded
  simp only [isNaN, exponentField_eq, fraction_eq, top, Nat.pow_eq, Bool.and_eq_false_iff,
    decide_eq_false_iff_not]
  omega

theorem isInfinite_exact {x : Double} : x.isInfinite = true ↔ x.magnitude = top := by
  simp only [isInfinite, exponentField_eq, fraction_eq, top, Nat.pow_eq, Bool.and_eq_true,
    decide_eq_true_eq]
  omega

theorem isZero_magnitude {x : Double} : x.isZero = true ↔ x.magnitude = 0 := by
  simp only [isZero, exponentField_eq, fraction_eq, Nat.pow_eq, Bool.and_eq_true,
    decide_eq_true_eq]
  omega

theorem eq_of_magnitude {x y : Double} (sign : x.isNegative = y.isNegative)
    (same : x.magnitude = y.magnitude) : x = y := by
  obtain ⟨left⟩ := x
  obtain ⟨right⟩ := y
  have short := left.toNat_lt
  have bounded := right.toNat_lt
  simp only [isNegative, magnitude, Nat.pow_eq, decide_eq_decide] at sign same
  simp only [mk.injEq, ← UInt64.toNat_inj]
  omega

theorem toNat_ofMagnitude (negative : Bool) {word : Nat} (number : word ≤ top) :
    (ofMagnitude negative word).bits.toNat = (if negative then Nat.pow 2 63 else 0) + word := by
  simp only [top, Nat.pow_eq] at number
  rw [ofMagnitude, UInt64.toNat_ofNat', Nat.mod_eq_of_lt]
  simp only [Nat.pow_eq]
  split <;> omega

theorem magnitude_ofMagnitude (negative : Bool) {word : Nat} (number : word ≤ top) :
    (ofMagnitude negative word).magnitude = word := by
  rw [magnitude, toNat_ofMagnitude negative number]
  simp only [top, Nat.pow_eq] at number ⊢
  split <;> omega

theorem isNegative_ofMagnitude (negative : Bool) {word : Nat} (number : word ≤ top) :
    (ofMagnitude negative word).isNegative = negative := by
  rw [isNegative, toNat_ofMagnitude negative number]
  simp only [top, Nat.pow_eq] at number ⊢
  cases negative <;> simp
  all_goals omega

theorem gapAt_pos (word : Nat) : 0 < gapAt word := Nat.pow_pos (by decide)

theorem stepsAt_inside {word : Nat} (same : (word + 1) / Nat.pow 2 52 = word / Nat.pow 2 52) :
    stepsAt (word + 1) = stepsAt word + gapAt word := by
  have next : (word + 1) % Nat.pow 2 52 = word % Nat.pow 2 52 + 1 := by
    simp only [Nat.pow_eq] at same ⊢
    omega
  have spread : gapAt (word + 1) = gapAt word := by rw [gapAt, gapAt, same]
  rw [stepsAt, stepsAt, same, next, spread]
  split
  · rw [Nat.succ_mul]
  · rw [← Nat.add_assoc, Nat.succ_mul]

theorem stepsAt_across {word : Nat} (more : (word + 1) / Nat.pow 2 52 = word / Nat.pow 2 52 + 1) :
    stepsAt (word + 1) = stepsAt word + gapAt word := by
  have foot : (word + 1) % Nat.pow 2 52 = 0 := by
    simp only [Nat.pow_eq] at more ⊢
    omega
  have full : word % Nat.pow 2 52 = Nat.pow 2 52 - 1 := by
    simp only [Nat.pow_eq] at more ⊢
    omega
  rw [stepsAt, stepsAt, more, foot, full, if_neg (Nat.succ_ne_zero _), gapAt, gapAt, more]
  cases word / Nat.pow 2 52 with
  | zero => rfl
  | succ below =>
    rw [if_neg (Nat.succ_ne_zero _)]
    simp only [Nat.add_sub_cancel, Nat.pow_eq]
    omega

theorem stepsAt_succ (word : Nat) : stepsAt (word + 1) = stepsAt word + gapAt word := by
  have nearby : (word + 1) / Nat.pow 2 52 = word / Nat.pow 2 52 ∨
      (word + 1) / Nat.pow 2 52 = word / Nat.pow 2 52 + 1 := by
    simp only [Nat.pow_eq]
    omega
  exact nearby.elim stepsAt_inside stepsAt_across

theorem stepsAt_strictMono : StrictMono stepsAt := by
  refine strictMono_nat_of_lt_succ fun word => ?_
  rw [stepsAt_succ]
  exact Nat.lt_add_of_pos_right (gapAt_pos word)

theorem gap_below {x : Double} {below : Nat} (next : x.magnitude = below + 1) :
    (if x.narrowBelow then x.gap else 2 * x.gap) = 2 * gapAt below := by
  simp only [narrowBelow, fraction_eq, exponentField_eq, gap_eq, gapAt, next, Bool.and_eq_true,
    decide_eq_true_eq]
  split
  · rename_i foot
    have lower : (below + 1) / Nat.pow 2 52 - 1 = below / Nat.pow 2 52 - 1 + 1 := by
      simp only [Nat.pow_eq] at foot ⊢
      omega
    rw [lower, Nat.mul_comm]
    rfl
  · rename_i inside
    have same : (below + 1) / Nat.pow 2 52 - 1 = below / Nat.pow 2 52 - 1 := by
      simp only [Nat.pow_eq] at inside ⊢
      omega
    rw [same]

theorem lowEnd_eq {x : Double} {below : Nat} (next : x.magnitude = below + 1) :
    x.lowEnd = 2 * (stepsAt below + stepsAt (below + 1)) := by
  rw [lowEnd, gap_below next, steps_eq, next, stepsAt_succ]
  omega

theorem highEnd_eq (x : Double) :
    x.highEnd = 2 * (stepsAt x.magnitude + stepsAt (x.magnitude + 1)) := by
  rw [highEnd, steps_eq, gap_eq, stepsAt_succ]
  omega

end MethodFrame.Double
