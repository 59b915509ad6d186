import Mathlib.Algebra.Order.Field.Basic
import Mathlib.Data.Rat.Cast.Order
import Mathlib.Tactic.Linarith
import MethodFrame.Proofs.Double.Scale

-- Rounding to the nearest double, ties to even. The numbers that round to a double lie between the
-- middles to its neighbours, so each one rounds to one double of a sign only.
namespace MethodFrame

def signed (negative : Bool) (size : ℚ) : ℚ := if negative then -size else size

theorem signed_distance (negative : Bool) (left right : ℚ) :
    |signed negative left - signed negative right| = |left - right| := by
  cases negative
  · rfl
  · rw [signed, signed, if_pos rfl, if_pos rfl, neg_sub_neg, abs_sub_comm]

theorem signed_injective {negative : Bool} {left right : ℚ}
    (same : signed negative left = signed negative right) : left = right := by
  cases negative
  · exact same
  · exact neg_injective same

theorem signed_zero (negative : Bool) : signed negative 0 = 0 := by
  cases negative <;> simp [signed]

theorem signed_opposite {negative other : Bool} (opposite : other ≠ negative) {left right : ℚ}
    (positive : 0 ≤ left) (nonnegative : 0 ≤ right) :
    |signed negative left - signed other right| = left + right := by
  have total : 0 ≤ left + right := add_nonneg positive nonnegative
  cases negative <;> cases other
  · exact absurd rfl opposite
  · simpa [signed] using total
  · rw [← abs_neg]
    simpa [signed, add_comm] using total
  · exact absurd rfl opposite

theorem distance_le_right {left right : ℚ} (less : left < right) (size : ℚ) :
    |size - right| ≤ |size - left| ↔ (left + right) / 2 ≤ size := by
  rw [← sq_le_sq]
  constructor
  · intro nearer
    by_contra short
    nlinarith
  · intro beyond
    nlinarith

theorem distance_le_left {left right : ℚ} (less : left < right) (size : ℚ) :
    |size - left| ≤ |size - right| ↔ size ≤ (left + right) / 2 := by
  rw [← sq_le_sq]
  constructor
  · intro nearer
    by_contra beyond
    nlinarith
  · intro short
    nlinarith

-- The steps of doubles and the digits of decimals are counted from units of this place.
def finest : Nat := 1074

theorem finest_eq : 1074 = finest := rfl

namespace Double

def sizeAt (word : Nat) : ℚ := stepsAt word / (Nat.pow 2 finest : Nat)

theorem sizeAt_strictMono : StrictMono sizeAt := by
  have unit (scale : Nat) : 0 < ((Nat.pow 2 scale : Nat) : ℚ) :=
    Nat.cast_pos.mpr (Nat.pow_pos two_pos)
  intro left right less
  have more : (stepsAt left : ℚ) < stepsAt right := by exact_mod_cast stepsAt_strictMono less
  exact div_lt_div_of_pos_right more (unit finest)

theorem sizeAt_zero : sizeAt 0 = 0 := by
  have nothing : stepsAt 0 = 0 := by decide
  rw [sizeAt, nothing, Nat.cast_zero, zero_div]

theorem sizeAt_nonneg (word : Nat) : 0 ≤ sizeAt word :=
  div_nonneg (Nat.cast_nonneg _) (Nat.cast_nonneg _)

-- The number that a word stands for. Infinity counts as the power of two that follows the largest
-- finite number: rounding goes on there as if the exponents did, and what it reaches is infinite.
def number (x : Double) : ℚ := signed x.isNegative (x.steps / (Nat.pow 2 finest : Nat))

theorem number_eq (x : Double) : x.number = signed x.isNegative (sizeAt x.magnitude) := by
  rw [number, steps_eq, sizeAt]

-- No double is nearer to the number, and where another one is as near the significand is even.
structure Nearest (number : ℚ) (x : Double) : Prop where
  valid : x.isNaN = false
  closest : ∀ y : Double, y.isNaN = false → |number - x.number| ≤ |number - y.number|
  even : ∀ y : Double, y.isNaN = false → y.number ≠ x.number →
    |number - y.number| = |number - x.number| → x.significand % 2 = 0

-- The numbers between the middles to both neighbours, the middles themselves only if the word is
-- even. Zero has no neighbour below and infinity none above.
structure Covers (word : Nat) (size : ℚ) : Prop where
  above : (sizeAt (word - 1) + sizeAt word) / 2 ≤ size
  below : word ≠ top → size ≤ (sizeAt word + sizeAt (word + 1)) / 2
  even : size = (sizeAt (word - 1) + sizeAt word) / 2 ∨
    size = (sizeAt word + sizeAt (word + 1)) / 2 → word % 2 = 0

theorem covers_ends {word : Nat} {size : ℚ} (finite : word ≠ top) : Covers word size ↔
    (sizeAt (word - 1) + sizeAt word) / 2 ≤ size ∧
    size ≤ (sizeAt word + sizeAt (word + 1)) / 2 ∧
    (size ≤ (sizeAt (word - 1) + sizeAt word) / 2 ∨
      (sizeAt word + sizeAt (word + 1)) / 2 ≤ size → word % 2 = 0) := by
  constructor
  · intro covers
    refine ⟨covers.above, covers.below finite, fun ends => covers.even ?_⟩
    exact ends.imp (fun low => le_antisymm low covers.above)
      (fun high => le_antisymm (covers.below finite) high)
  · rintro ⟨above, below, even⟩
    exact ⟨above, fun _ => below, fun ends => even (ends.imp le_of_eq ge_of_eq)⟩

theorem covers_exact (word : Nat) : Covers word (sizeAt word) := by
  have above := sizeAt_strictMono word.lt_succ_self
  have below := sizeAt_strictMono.monotone (Nat.sub_le word 1)
  refine ⟨by linarith, fun _ => by linarith, ?_⟩
  rintro (low | high)
  · have same : word - 1 = word := sizeAt_strictMono.injective (by linarith)
    omega
  · linarith

theorem Covers.between {word : Nat} {low size high : ℚ} (lowest : Covers word low)
    (highest : Covers word high) (above : low ≤ size) (below : size ≤ high) : Covers word size := by
  refine ⟨lowest.above.trans above, fun inside => below.trans (highest.below inside), ?_⟩
  rintro (low | high)
  · exact lowest.even (.inl (le_antisymm (above.trans low.le) lowest.above))
  · by_cases last : word = top
    · rw [last]
      decide
    · exact highest.even (.inr (le_antisymm (highest.below last) (high.ge.trans below)))

theorem Covers.pos {word : Nat} {size : ℚ} (nonzero : 0 < word) (covers : Covers word size) :
    0 < size := by
  have positive := sizeAt_strictMono nonzero
  have nonnegative := sizeAt_nonneg (word - 1)
  have above := covers.above
  rw [sizeAt_zero] at positive
  linarith

theorem Covers.closest {word other : Nat} {size : ℚ} (covers : Covers word size)
    (valid : other ≤ top) : |size - sizeAt word| ≤ |size - sizeAt other| := by
  rcases lt_trichotomy other word with less | rfl | more
  · have near := sizeAt_strictMono.monotone (Nat.le_sub_one_of_lt less)
    have above := covers.above
    exact (distance_le_right (sizeAt_strictMono less) size).mpr (by linarith)
  · exact le_rfl
  · have near := sizeAt_strictMono.monotone (Nat.succ_le_of_lt more)
    have below := covers.below (Nat.ne_of_lt (Nat.lt_of_lt_of_le more valid))
    exact (distance_le_left (sizeAt_strictMono more) size).mpr (by linarith)

theorem Covers.tie {word other : Nat} {size : ℚ} (covers : Covers word size) (valid : other ≤ top)
    (different : other ≠ word) (same : |size - sizeAt other| = |size - sizeAt word|) :
    word % 2 = 0 := by
  rcases Nat.lt_or_gt_of_ne different with less | more
  · have near := sizeAt_strictMono.monotone (Nat.le_sub_one_of_lt less)
    have above := covers.above
    have middle := (distance_le_left (sizeAt_strictMono less) size).mp same.le
    exact covers.even (.inl (by linarith))
  · have near := sizeAt_strictMono.monotone (Nat.succ_le_of_lt more)
    have below := covers.below (Nat.ne_of_lt (Nat.lt_of_lt_of_le more valid))
    have middle := (distance_le_right (sizeAt_strictMono more) size).mp same.le
    exact covers.even (.inr (by linarith))

theorem covers_of_closest {word : Nat} {size : ℚ} (valid : word ≤ top) (positive : 0 ≤ size)
    (closest : ∀ other ≤ top, |size - sizeAt word| ≤ |size - sizeAt other|)
    (tie : ∀ other ≤ top, other ≠ word → |size - sizeAt other| = |size - sizeAt word| →
      word % 2 = 0) : Covers word size where
  above := by
    cases word with
    | zero => simpa [sizeAt_zero] using positive
    | succ before =>
      exact (distance_le_right (sizeAt_strictMono before.lt_succ_self) size).mp
        (closest before (Nat.le_of_succ_le valid))
  below inside := (distance_le_left (sizeAt_strictMono word.lt_succ_self) size).mp
    (closest (word + 1) (Nat.lt_of_le_of_ne valid inside))
  even := by
    rintro (low | high)
    · cases word with
      | zero => rfl
      | succ before =>
        have inside := Nat.le_of_succ_le valid
        have less := sizeAt_strictMono before.lt_succ_self
        exact tie before inside before.lt_succ_self.ne
          (le_antisymm ((distance_le_left less size).mpr low.le) (closest before inside))
    · by_cases last : word = top
      · rw [last]
        decide
      · have inside := Nat.lt_of_le_of_ne valid last
        have more := sizeAt_strictMono word.lt_succ_self
        exact tie (word + 1) inside word.lt_succ_self.ne'
          (le_antisymm ((distance_le_right more size).mpr high.ge) (closest (word + 1) inside))

theorem Nearest.covers {x : Double} {size : ℚ} (positive : 0 ≤ size)
    (nearest : Nearest (signed x.isNegative size) x) : Covers x.magnitude size := by
  have point {other : Nat} (valid : other ≤ top) : ∃ y : Double, y.isNaN = false ∧
      y.number = signed x.isNegative (sizeAt other) := by
    refine ⟨ofMagnitude x.isNegative other, ?_, ?_⟩
    · rwa [isNaN_exact, magnitude_ofMagnitude _ valid]
    · rw [number_eq, isNegative_ofMagnitude _ valid, magnitude_ofMagnitude _ valid]
  refine covers_of_closest (isNaN_exact.mp nearest.valid) positive ?_ ?_
  · intro other valid
    obtain ⟨y, number, same⟩ := point valid
    have closest := nearest.closest y number
    rwa [same, number_eq, signed_distance, signed_distance] at closest
  · intro other valid different tie
    obtain ⟨y, number, same⟩ := point valid
    rw [← significand_parity]
    refine nearest.even y number ?_ ?_
    · rw [same, number_eq]
      exact fun equal => different (sizeAt_strictMono.injective (signed_injective equal))
    · rwa [same, number_eq, signed_distance, signed_distance]

theorem distance_number {size : ℚ} (positive : 0 ≤ size) (negative : Bool) (y : Double) :
    |size - sizeAt y.magnitude| ≤ |signed negative size - y.number| := by
  rw [number_eq]
  by_cases sign : y.isNegative = negative
  · rw [sign, signed_distance]
  · rw [signed_opposite sign positive (sizeAt_nonneg _), abs_le]
    have nonnegative := sizeAt_nonneg y.magnitude
    constructor <;> linarith

theorem Covers.opposite {x y : Double} {size : ℚ} (covers : Covers x.magnitude size)
    (positive : 0 ≤ size) (equal : y.magnitude = x.magnitude)
    (tie : |signed x.isNegative size - y.number| = |size - sizeAt x.magnitude|) :
    y.number = x.number := by
  rw [number_eq, number_eq, equal]
  by_cases sign : y.isNegative = x.isNegative
  · rw [sign]
  · rw [number_eq, equal, signed_opposite sign positive (sizeAt_nonneg _)] at tie
    have nearZero := covers.closest (Nat.zero_le top)
    rw [← tie, sizeAt_zero, sub_zero, abs_of_nonneg positive] at nearZero
    have nothing : sizeAt x.magnitude = 0 := le_antisymm (by linarith) (sizeAt_nonneg _)
    rw [nothing, signed_zero, signed_zero]

theorem Covers.nearest {x : Double} {size : ℚ} (valid : x.isNaN = false) (positive : 0 ≤ size)
    (covers : Covers x.magnitude size) : Nearest (signed x.isNegative size) x := by
  have own : |signed x.isNegative size - x.number| = |size - sizeAt x.magnitude| := by
    rw [number_eq, signed_distance]
  refine ⟨valid, fun y number => ?_, fun y number different tie => ?_⟩
  · rw [own]
    exact (covers.closest (isNaN_exact.mp number)).trans (distance_number positive _ y)
  · rw [own] at tie
    have same := le_antisymm ((distance_number positive _ y).trans tie.le)
      (covers.closest (isNaN_exact.mp number))
    rw [significand_parity]
    exact covers.tie (isNaN_exact.mp number)
      (fun equal => different (covers.opposite positive equal tie)) same

theorem nearest_exact {x : Double} {size : ℚ} (positive : 0 ≤ size) :
    Nearest (signed x.isNegative size) x ↔ x.isNaN = false ∧ Covers x.magnitude size :=
  ⟨fun nearest => ⟨nearest.valid, nearest.covers positive⟩,
    fun covers => covers.2.nearest covers.1 positive⟩

theorem covers_order {word other : Nat} {size : ℚ} (valid : other ≤ top)
    (covers : Covers word size) (others : Covers other size) : ¬word < other := by
  intro less
  have below := covers.below (Nat.ne_of_lt (Nat.lt_of_lt_of_le less valid))
  have above := others.above
  have next := sizeAt_strictMono.monotone (Nat.succ_le_of_lt less)
  have before := sizeAt_strictMono.monotone (Nat.le_sub_one_of_lt less)
  have even := covers.even (.inr (by linarith))
  have evenToo := others.even (.inl (by linarith))
  have adjacent : ¬word + 1 < other := by
    intro apart
    have strict := sizeAt_strictMono apart
    linarith
  omega

theorem covers_unique {word other : Nat} {size : ℚ} (valid : word ≤ top) (number : other ≤ top)
    (covers : Covers word size) (others : Covers other size) : word = other :=
  Nat.le_antisymm (Nat.le_of_not_lt (covers_order valid others covers))
    (Nat.le_of_not_lt (covers_order number covers others))

end Double
end MethodFrame
