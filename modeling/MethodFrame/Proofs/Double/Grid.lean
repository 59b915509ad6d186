import MethodFrame.Proofs.Double.Rounding

-- The search for the shortest decimal. Its test for one decimal is rounding, and what it finds lies
-- on the coarsest grid that has such a decimal, as near to the number as that grid allows.
namespace MethodFrame

theorem unit_pos (scale : Nat) : (0 : ℚ) < (Nat.pow 10 scale : Nat) :=
  Nat.cast_pos.mpr (Nat.pow_pos (by decide))

def pointAt (count : Nat) : ℚ := count / (Nat.pow 10 finest : Nat)

theorem pointAt_le {left right : Nat} : pointAt left ≤ pointAt right ↔ left ≤ right := by
  rw [pointAt, pointAt, div_le_div_iff_of_pos_right (unit_pos finest), Nat.cast_le]

theorem pointAt_lt {left right : Nat} : pointAt left < pointAt right ↔ left < right := by
  rw [← not_le, pointAt_le, Nat.not_le]

theorem pointAt_add (left right : Nat) : pointAt (left + right) = pointAt left + pointAt right := by
  rw [pointAt, pointAt, pointAt, Nat.cast_add, add_div]

theorem pointAt_zero : pointAt 0 = 0 := by
  rw [pointAt, Nat.cast_zero, zero_div]

theorem unit_scale (count scale : Nat) : (count : ℚ) / (Nat.pow 2 scale : Nat) =
    ((count * Nat.pow 5 scale : Nat) : ℚ) / (Nat.pow 10 scale : Nat) := by
  have ten : Nat.pow 10 scale = Nat.pow 2 scale * Nat.pow 5 scale := Nat.mul_pow 2 5 scale
  have five : ((Nat.pow 5 scale : Nat) : ℚ) ≠ 0 :=
    Nat.cast_ne_zero.mpr (Nat.pow_pos (by decide)).ne'
  rw [ten, Nat.cast_mul, Nat.cast_mul, mul_div_mul_right _ _ five]

theorem Double.sizeAt_point (word : Nat) :
    sizeAt word = pointAt (stepsAt word * Nat.pow 5 finest) := by
  rw [sizeAt, unit_scale, pointAt]

def Decimal.size (decimal : Decimal) : ℚ := pointAt (decimal.digits * Nat.pow 10 decimal.place)

namespace Double

theorem middle_le {left right count : Nat} : (sizeAt left + sizeAt right) / 2 ≤ pointAt count ↔
    2 * (stepsAt left + stepsAt right) * Nat.pow 5 finest ≤ 4 * count := by
  rw [div_le_iff₀ two_pos, mul_two, sizeAt_point, sizeAt_point, ← pointAt_add, ← pointAt_add,
    pointAt_le, Nat.mul_assoc, Nat.add_mul]
  omega

theorem le_middle {left right count : Nat} : pointAt count ≤ (sizeAt left + sizeAt right) / 2 ↔
    4 * count ≤ 2 * (stepsAt left + stepsAt right) * Nat.pow 5 finest := by
  rw [le_div_iff₀ two_pos, mul_two, sizeAt_point, sizeAt_point, ← pointAt_add, ← pointAt_add,
    pointAt_le, Nat.mul_assoc, Nat.add_mul]
  omega

theorem readsBack_exact {x : Double} (nonzero : x.magnitude ≠ 0) (finite : x.magnitude ≠ top)
    (decimal : Decimal) : x.readsBack decimal = true ↔ Covers x.magnitude decimal.size := by
  obtain ⟨below, next⟩ := Nat.exists_eq_succ_of_ne_zero nonzero
  rw [covers_ends finite, Decimal.size, middle_le, le_middle, le_middle, middle_le, readsBack,
    significand_parity, highEnd_eq, lowEnd_eq next, next, Nat.succ_sub_one, finest_eq]
  generalize 4 * (decimal.digits * Nat.pow 10 decimal.place) = value
  generalize 2 * (stepsAt below + stepsAt below.succ) * Nat.pow 5 finest = low
  generalize 2 * (stepsAt below.succ + stepsAt (below.succ + 1)) * Nat.pow 5 finest = high
  split <;> simp only [Bool.and_eq_true, decide_eq_true_eq] <;> omega

theorem sizeAt_exactDigits (x : Double) : sizeAt x.magnitude = pointAt x.exactDigits := by
  rw [sizeAt_point, exactDigits, steps_eq, finest_eq]

def floorAt (x : Double) (place : Nat) : Decimal := ⟨x.exactDigits / Nat.pow 10 place, place⟩

def ceilingAt (x : Double) (place : Nat) : Decimal := ⟨x.exactDigits / Nat.pow 10 place + 1, place⟩

theorem floorAt_le (x : Double) (place : Nat) : (x.floorAt place).size ≤ sizeAt x.magnitude := by
  rw [sizeAt_exactDigits, Decimal.size, pointAt_le]
  exact Nat.div_mul_le_self _ _

theorem le_ceilingAt (x : Double) (place : Nat) :
    sizeAt x.magnitude ≤ (x.ceilingAt place).size := by
  rw [sizeAt_exactDigits, Decimal.size, pointAt_le]
  exact (Nat.lt_mul_of_div_lt (Nat.lt_succ_self _) (Nat.pow_pos (by decide))).le

theorem floorAt_or_ceilingAt (x : Double) (place digits : Nat) :
    Decimal.size ⟨digits, place⟩ ≤ (x.floorAt place).size ∨
      (x.ceilingAt place).size ≤ Decimal.size ⟨digits, place⟩ := by
  simp only [Decimal.size, pointAt_le]
  exact (Nat.lt_or_ge digits (x.ceilingAt place).digits).imp
    (fun low => Nat.mul_le_mul_right _ (Nat.le_of_lt_succ low)) (Nat.mul_le_mul_right _)

theorem nearer_floorAt (x : Double) (place : Nat) : 2 * x.exactDigits <
    ((x.floorAt place).digits + (x.ceilingAt place).digits) * Nat.pow 10 place ↔
      sizeAt x.magnitude - (x.floorAt place).size <
        (x.ceilingAt place).size - sizeAt x.magnitude := by
  rw [Nat.two_mul, Nat.add_mul, ← pointAt_lt, pointAt_add, pointAt_add, ← sizeAt_exactDigits]
  show _ < (x.floorAt place).size + (x.ceilingAt place).size ↔ _
  constructor <;> intro less <;> linarith

structure Closest (x : Double) (place : Nat) (decimal : Decimal) : Prop where
  onGrid : decimal.place = place
  covered : Covers x.magnitude decimal.size
  nearest : ∀ digits, Covers x.magnitude (Decimal.size ⟨digits, place⟩) →
    |decimal.size - sizeAt x.magnitude| ≤ |Decimal.size ⟨digits, place⟩ - sizeAt x.magnitude|

-- If a point beyond a neighbour rounds to the number, so does the neighbour between the two.
theorem covers_floorAt {x : Double} {size : ℚ} (place : Nat) (covers : Covers x.magnitude size)
    (low : size ≤ (x.floorAt place).size) : Covers x.magnitude (x.floorAt place).size :=
  covers.between (covers_exact _) low (x.floorAt_le place)

theorem covers_ceilingAt {x : Double} {size : ℚ} (place : Nat) (covers : Covers x.magnitude size)
    (high : (x.ceilingAt place).size ≤ size) : Covers x.magnitude (x.ceilingAt place).size :=
  (covers_exact _).between covers (x.le_ceilingAt place) high

theorem floorAt_closest {x : Double} {place : Nat}
    (covered : Covers x.magnitude (x.floorAt place).size)
    (best : Covers x.magnitude (x.ceilingAt place).size →
      sizeAt x.magnitude - (x.floorAt place).size ≤ (x.ceilingAt place).size - sizeAt x.magnitude) :
    x.Closest place (x.floorAt place) := by
  refine ⟨rfl, covered, fun digits covers => ?_⟩
  have floor := x.floorAt_le place
  rw [abs_sub_comm, abs_of_nonneg (sub_nonneg.mpr floor)]
  rcases x.floorAt_or_ceilingAt place digits with low | high
  · exact (by linarith : _ ≤ _).trans (neg_le_abs _)
  · have near := best (covers_ceilingAt place covers high)
    exact (by linarith : _ ≤ _).trans (le_abs_self _)

theorem ceilingAt_closest {x : Double} {place : Nat}
    (covered : Covers x.magnitude (x.ceilingAt place).size)
    (best : Covers x.magnitude (x.floorAt place).size →
      (x.ceilingAt place).size - sizeAt x.magnitude ≤ sizeAt x.magnitude - (x.floorAt place).size) :
    x.Closest place (x.ceilingAt place) := by
  refine ⟨rfl, covered, fun digits covers => ?_⟩
  have ceiling := x.le_ceilingAt place
  rw [abs_of_nonneg (sub_nonneg.mpr ceiling)]
  rcases x.floorAt_or_ceilingAt place digits with low | high
  · have near := best (covers_floorAt place covers low)
    exact (by linarith : _ ≤ _).trans (neg_le_abs _)
  · exact (by linarith : _ ≤ _).trans (le_abs_self _)

theorem onGrid_eq (x : Double) (place : Nat) : x.onGrid place =
    match x.readsBack (x.floorAt place), x.readsBack (x.ceilingAt place) with
    | true, true =>
      if 2 * x.exactDigits <
        ((x.floorAt place).digits + (x.ceilingAt place).digits) * Nat.pow 10 place
      then some (x.floorAt place) else some (x.ceilingAt place)
    | true, false => some (x.floorAt place)
    | false, true => some (x.ceilingAt place)
    | false, false => none :=
  rfl

theorem onGrid_some {x : Double} (nonzero : x.magnitude ≠ 0) (finite : x.magnitude ≠ top)
    {place : Nat} {decimal : Decimal} (found : x.onGrid place = some decimal) :
    x.Closest place decimal := by
  have floor := readsBack_exact nonzero finite (x.floorAt place)
  have ceiling := readsBack_exact nonzero finite (x.ceilingAt place)
  rw [onGrid_eq] at found
  split at found
  · rename_i low high
    split at found
    · rename_i less
      cases found
      exact floorAt_closest (floor.mp low) fun _ => ((nearer_floorAt x place).mp less).le
    · rename_i less
      cases found
      exact ceilingAt_closest (ceiling.mp high) fun _ =>
        not_lt.mp (mt (nearer_floorAt x place).mpr less)
  · rename_i low high
    cases found
    exact floorAt_closest (floor.mp low) fun covers => by simp [ceiling.mpr covers] at high
  · rename_i low high
    cases found
    exact ceilingAt_closest (ceiling.mp high) fun covers => by simp [floor.mpr covers] at low
  · cases found

theorem onGrid_missed {x : Double} {place : Nat} (missed : x.onGrid place = none) :
    x.readsBack (x.floorAt place) = false ∧ x.readsBack (x.ceilingAt place) = false := by
  rw [onGrid_eq] at missed
  split at missed
  · split at missed <;> cases missed
  · cases missed
  · cases missed
  · rename_i low high
    exact ⟨low, high⟩

theorem onGrid_none {x : Double} (nonzero : x.magnitude ≠ 0) (finite : x.magnitude ≠ top)
    {place : Nat} (missed : x.onGrid place = none) (digits : Nat) :
    ¬Covers x.magnitude (Decimal.size ⟨digits, place⟩) := by
  intro covers
  obtain ⟨low, high⟩ := onGrid_missed missed
  rcases x.floorAt_or_ceilingAt place digits with below | above
  · have reads := (readsBack_exact nonzero finite _).mpr (covers_floorAt place covers below)
    exact Bool.false_ne_true (low.symm.trans reads)
  · have reads := (readsBack_exact nonzero finite _).mpr (covers_ceilingAt place covers above)
    exact Bool.false_ne_true (high.symm.trans reads)

theorem onGrid_zero {x : Double} (nonzero : x.magnitude ≠ 0) (finite : x.magnitude ≠ top) :
    ∃ decimal, x.onGrid 0 = some decimal := by
  rcases found : x.onGrid 0 with _ | decimal
  · have same : (x.floorAt 0).size = sizeAt x.magnitude := by
      simp only [sizeAt_exactDigits, Decimal.size, floorAt, Nat.pow_eq, Nat.pow_zero, Nat.div_one,
        Nat.mul_one]
    exact absurd (same ▸ covers_exact _) (onGrid_none nonzero finite found _)
  · exact ⟨decimal, rfl⟩

structure Coarsest (x : Double) (limit : Nat) (decimal : Decimal) : Prop where
  best : x.Closest decimal.place decimal
  coarsest : ∀ other : Decimal, other.place ≤ limit → Covers x.magnitude other.size →
    other.place ≤ decimal.place

theorem onGrid_coarsest {x : Double} (nonzero : x.magnitude ≠ 0) (finite : x.magnitude ≠ top)
    {limit : Nat} {decimal : Decimal} (found : x.onGrid limit = some decimal) :
    x.Coarsest limit decimal := by
  have best := onGrid_some nonzero finite found
  refine ⟨?_, fun other within _ => ?_⟩
  · rwa [best.onGrid]
  · rwa [best.onGrid]

theorem searchFrom_exact {x : Double} (nonzero : x.magnitude ≠ 0) (finite : x.magnitude ≠ top)
    (limit : Nat) : ∃ decimal, x.searchFrom limit = some decimal ∧ x.Coarsest limit decimal := by
  induction limit with
  | zero =>
    obtain ⟨decimal, found⟩ := onGrid_zero nonzero finite
    exact ⟨decimal, found, onGrid_coarsest nonzero finite found⟩
  | succ limit ih =>
    rw [searchFrom]
    cases found : x.onGrid (limit + 1) with
    | some decimal => exact ⟨decimal, rfl, onGrid_coarsest nonzero finite found⟩
    | none =>
      obtain ⟨decimal, later, best, coarsest⟩ := ih
      refine ⟨decimal, later, best, fun other within covers => ?_⟩
      rcases Nat.lt_or_eq_of_le within with less | same
      · exact coarsest other (Nat.le_of_lt_succ less) covers
      · rw [← same] at found
        exact absurd covers (onGrid_none nonzero finite found other.digits)

theorem size_far {decimal : Decimal} (positive : 0 < decimal.size) {place : Nat}
    (far : place ≤ decimal.place) : pointAt (Nat.pow 10 place) ≤ decimal.size := by
  rw [Decimal.size, ← pointAt_zero, pointAt_lt] at positive
  rw [Decimal.size, pointAt_le]
  exact (Nat.pow_le_pow_right (by decide) far).trans
    (Nat.le_mul_of_pos_left _ (Nat.pos_of_mul_pos_right positive))

theorem top_below : stepsAt top * Nat.pow 5 finest < Nat.pow 10 (coarsestPlace + 1) := by
  decide +kernel

-- No double reaches the grids that the search leaves out.
theorem covers_place {x : Double} (nonzero : x.magnitude ≠ 0) (finite : x.magnitude < top)
    {decimal : Decimal} (covers : Covers x.magnitude decimal.size) :
    decimal.place ≤ coarsestPlace := by
  by_contra beyond
  have above := size_far (covers.pos (Nat.pos_of_ne_zero nonzero)) (Nat.lt_of_not_le beyond)
  have below := covers.below finite.ne
  have next := sizeAt_strictMono.monotone (Nat.succ_le_of_lt finite)
  have own := sizeAt_strictMono.monotone finite.le
  have least := pointAt_lt.mpr top_below
  rw [← sizeAt_point] at least
  linarith

theorem shortest_exact {x : Double} (nonzero : x.magnitude ≠ 0) (finite : x.magnitude < top) :
    ∃ decimal, x.shortest = some decimal ∧ x.Closest decimal.place decimal ∧
      ∀ other : Decimal, Covers x.magnitude other.size → other.place ≤ decimal.place := by
  obtain ⟨decimal, found, best, coarsest⟩ := searchFrom_exact nonzero finite.ne coarsestPlace
  exact ⟨decimal, found, best, fun other covers =>
    coarsest other (covers_place nonzero finite covers) covers⟩

end Double

-- A size that so many digits in a row can write, whatever zeros stand around them.
def Spans (count : Nat) (size : ℚ) : Prop := ∃ digits raised lowered : Nat,
  digits < Nat.pow 10 count ∧
    size = (digits * Nat.pow 10 raised : Nat) / (Nat.pow 10 lowered : Nat)

theorem Decimal.spans {decimal : Decimal} {count : Nat} (few : decimal.digits < Nat.pow 10 count) :
    Spans count decimal.size :=
  ⟨decimal.digits, decimal.place, finest, few, rfl⟩

theorem spans_zero (count : Nat) : Spans count 0 :=
  ⟨0, 0, 0, Nat.pow_pos (by decide), by simp⟩

theorem spans_point (digits : Nat) {raised lowered : Nat} (within : lowered ≤ raised + finest) :
    ((digits * Nat.pow 10 raised : Nat) : ℚ) / (Nat.pow 10 lowered : Nat) =
      Decimal.size ⟨digits, raised + finest - lowered⟩ := by
  rw [Decimal.size, pointAt, div_eq_div_iff (unit_pos _).ne' (unit_pos _).ne']
  generalize finest = scale at within ⊢
  norm_cast
  simp only [Nat.pow_eq]
  rw [Nat.mul_assoc, Nat.mul_assoc, ← Nat.pow_add, ← Nat.pow_add, Nat.sub_add_cancel within]

theorem spans_under {digits count raised lowered place : Nat} (few : digits < Nat.pow 10 count)
    (fine : raised + finest ≤ place + lowered) :
    ((digits * Nat.pow 10 raised : Nat) : ℚ) / (Nat.pow 10 lowered : Nat) ≤
      Decimal.size ⟨1, place + count⟩ := by
  rw [Decimal.size, pointAt, div_le_div_iff₀ (unit_pos _) (unit_pos _)]
  generalize finest = scale at fine ⊢
  norm_cast
  simp only [Nat.pow_eq] at few ⊢
  calc digits * 10 ^ raised * 10 ^ scale
      = digits * 10 ^ (raised + scale) := by rw [Nat.mul_assoc, ← Nat.pow_add]
    _ ≤ 10 ^ count * 10 ^ (place + lowered) :=
        Nat.mul_le_mul few.le (Nat.pow_le_pow_right (by decide) fine)
    _ = 1 * 10 ^ (place + count) * 10 ^ lowered := by
        rw [← Nat.pow_add, Nat.one_mul, ← Nat.pow_add]
        congr 1
        omega

theorem Double.coarsest_spans {x : Double} (nonzero : x.magnitude ≠ 0) {decimal : Decimal}
    (covered : Covers x.magnitude decimal.size)
    (coarsest : ∀ other : Decimal, Covers x.magnitude other.size → other.place ≤ decimal.place)
    {count : Nat} {size : ℚ} (covers : Covers x.magnitude size) (spans : Spans count size) :
    Spans count decimal.size := by
  obtain ⟨digits, raised, lowered, few, rfl⟩ := spans
  have positive := covers.pos (Nat.pos_of_ne_zero nonzero)
  refine Decimal.spans (Nat.lt_of_not_le fun many => ?_)
  rcases Nat.lt_or_ge (decimal.place + lowered) (raised + finest) with coarse | fine
  · have within : lowered ≤ raised + finest := by omega
    rw [spans_point digits within] at covers
    have place := coarsest _ covers
    dsimp only at place
    omega
  · -- A power of ten lies between the two decimals, on a grid coarser than both.
    have above : Decimal.size ⟨1, decimal.place + count⟩ ≤ decimal.size := by
      rw [Decimal.size, Decimal.size, pointAt_le, Nat.one_mul, Nat.pow_eq, Nat.pow_add,
        Nat.mul_comm]
      exact Nat.mul_le_mul_right _ many
    have place := coarsest _ (covers.between covered (spans_under few fine) above)
    have zero : count = 0 := by
      dsimp only at place
      omega
    rw [zero] at few
    rw [Nat.lt_one_iff.mp few, Nat.zero_mul, Nat.cast_zero, zero_div] at positive
    exact positive.false

end MethodFrame
