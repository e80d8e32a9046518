import Mathlib.Algebra.Order.Field.Power
import Mathlib.Data.Rat.Cast.Order
import Mathlib.Tactic.Linarith
import Mathlib.Tactic.Positivity
import Mathlib.Tactic.Ring
import EntityGraph.Number.Shortest
import EntityGraph.Proofs.Rounding

/-!
The digits that are found for a double read back as that double. They stand for a number of its
interval, and every number of the interval is rounded to the double; twenty digits are always
enough to meet the interval.
-/

namespace EntityGraph
namespace Double

/-- A finite double: at most 53 significant bits, and none below the unit. -/
structure Finite (d : Double) : Prop where
  bits : 2 ^ (d.magnitude.log2 - 52) ∣ d.magnitude
  bounded : d.magnitude < infinite

theorem roundedQuotient_cases (num den : Nat) :
    roundedQuotient num den = num / den ∨ roundedQuotient num den = num / den + 1 :=
  (roundedQuotient_nearest num den).1.imp And.left And.left

/-- Rounding leaves at most 53 bits. -/
theorem bits_roundedMagnitude (num den : Nat) :
    2 ^ ((roundedMagnitude num den).log2 - 52) ∣ roundedMagnitude num den := by
  refine bits_mul_two_pow ?_ _
  obtain ⟨spare, hspare⟩ : ∃ spare, (num / den).log2 - 52 = spare := ⟨_, rfl⟩
  have small : num / (den * 2 ^ spare) < 2 ^ 53 := by
    rw [← Nat.div_div_eq_div_mul, Nat.div_lt_iff_lt_mul (Nat.two_pow_pos spare), ← Nat.pow_add]
    exact (Nat.lt_log2_self (n := num / den)).trans_le
      (Nat.pow_le_pow_right (by decide) (by omega))
  rw [hspare, Nat.pow_eq]
  have := roundedQuotient_cases num (den * 2 ^ spare)
  omega

/-- A quotient is rounded to the whole number that it is within a half of; at the half itself to
an even one only. -/
theorem roundedQuotient_eq {num den n : Nat} (positive : 0 < den)
    (below : 2 * (n * den) ≤ 2 * num + den) (above : 2 * num ≤ 2 * (n * den) + den)
    (half : 2 * (n * den) = 2 * num + den ∨ 2 * num = 2 * (n * den) + den → n % 2 = 0) :
    roundedQuotient num den = n := by
  have split := Nat.div_add_mod num den
  have rest := Nat.mod_lt num positive
  rw [Nat.mul_comm] at split
  unfold roundedQuotient
  dsimp only
  generalize num / den = q at *
  generalize num % den = r at *
  obtain ⟨k, rfl⟩ | ⟨k, rfl⟩ :=
    (Nat.le_total q n).imp Nat.exists_eq_add_of_le Nat.exists_eq_add_of_le
  · rw [Nat.add_mul] at *
    obtain rfl | rfl | more : k = 0 ∨ k = 1 ∨ 2 ≤ k := by omega
    · split_ifs <;> omega
    · split_ifs <;> omega
    · have := Nat.mul_le_mul_right den more
      omega
  · rw [Nat.add_mul] at *
    obtain rfl | more : k = 0 ∨ 1 ≤ k := by omega
    · split_ifs <;> omega
    · have := Nat.mul_le_mul_right den more
      omega

/-- A magnitude as at most 53 bits before a power of two; fewer than 53 only in the last places. -/
structure Significand (magnitude bits spare : Nat) : Prop where
  split : magnitude = bits * 2 ^ spare
  spare_eq : magnitude.log2 - 52 = spare
  positive : 0 < bits
  atMost : bits < 2 ^ 53
  full : spare = 0 ∨ 2 ^ 52 ≤ bits

theorem exists_significand {m : Nat} (positive : 0 < m) (bits : 2 ^ (m.log2 - 52) ∣ m) :
    ∃ n spare, Significand m n spare := by
  obtain ⟨n, hn⟩ := bits
  rw [Nat.mul_comm] at hn
  refine ⟨n, m.log2 - 52, hn, rfl, ?_, ?_, ?_⟩
  · refine Nat.pos_of_ne_zero ?_
    rintro rfl
    omega
  · refine Nat.lt_of_mul_lt_mul_right (a := 2 ^ (m.log2 - 52)) ?_
    rw [← hn, ← Nat.pow_add]
    exact (Nat.lt_log2_self (n := m)).trans_le (Nat.pow_le_pow_right (by decide) (by omega))
  · obtain small | large : m.log2 ≤ 52 ∨ 52 < m.log2 := by omega
    · exact .inl (by omega)
    · refine .inr (Nat.le_of_mul_le_mul_right ?_ (Nat.two_pow_pos (m.log2 - 52)))
      rw [← hn, ← Nat.pow_add, Nat.add_sub_cancel' (by omega)]
      exact Nat.log2_self_le (by omega)

namespace Significand

variable {m n spare : Nat}

/-- How far the interval of a magnitude reaches down, in quarters: half a place, or a quarter of it
where all numbers below have one bit more. -/
def reach (n spare place : Nat) : Nat := if n = 2 ^ 52 ∧ 0 < spare then place else 2 * place

theorem reach_mul (n spare place scale : Nat) :
    reach n spare place * scale = reach n spare (place * scale) := by
  unfold reach
  split
  · rfl
  · exact Nat.mul_assoc 2 place scale

theorem reach_le (n spare place : Nat) : reach n spare place ≤ 2 * place := by
  unfold reach
  split <;> omega

theorem interval_eq (h : Significand m n spare) : interval m =
    { low := 4 * m - reach n spare (2 ^ spare)
      high := 4 * m + 2 * 2 ^ spare
      closed := n % 2 = 0 } := by
  have whole : m / 2 ^ spare = n := by
    rw [h.split]
    exact Nat.mul_div_cancel n (Nat.two_pow_pos spare)
  simp only [interval, h.spare_eq, Nat.pow_eq, whole, reach]

/-- The ends of the interval belong to it where the bits are even. -/
theorem bounds_of_holds (h : Significand m n spare) {x scale place : Nat}
    (hplace : 2 ^ spare * scale = place) (inside : (interval m).holds x scale = true) :
    4 * (n * place) ≤ x + reach n spare place ∧ x ≤ 4 * (n * place) + 2 * place ∧
      (n % 2 = 1 → 4 * (n * place) < x + reach n spare place ∧
        x < 4 * (n * place) + 2 * place) := by
  have whole : m * scale = n * place := by rw [← hplace, h.split, Nat.mul_assoc]
  have low : (4 * m - reach n spare (2 ^ spare)) * scale =
      4 * (n * place) - reach n spare place := by
    rw [Nat.sub_mul, Nat.mul_assoc, whole, reach_mul, hplace]
  have high : (4 * m + 2 * 2 ^ spare) * scale = 4 * (n * place) + 2 * place := by
    rw [Nat.add_mul, Nat.mul_assoc, Nat.mul_assoc, hplace, whole]
  have down := reach_le n spare place
  have most : place ≤ n * place := Nat.le_mul_of_pos_left place h.positive
  rw [h.interval_eq, Interval.holds] at inside
  dsimp only at inside
  rw [low, high] at inside
  split at inside
  · rename_i even
    have even : n % 2 = 0 := by simpa using even
    simp only [Bool.and_eq_true, decide_eq_true_eq] at inside
    omega
  · simp only [Bool.and_eq_true, decide_eq_true_eq] at inside
    omega

end Significand

theorem roundedMagnitude_eq_of {num den n spare : Nat} (positive : 0 < den)
    (spare_eq : (num / den).log2 - 52 = spare)
    (below : 2 * (n * (2 ^ spare * den)) ≤ 2 * num + 2 ^ spare * den)
    (above : 2 * num ≤ 2 * (n * (2 ^ spare * den)) + 2 ^ spare * den)
    (half : 2 * (n * (2 ^ spare * den)) = 2 * num + 2 ^ spare * den ∨
      2 * num = 2 * (n * (2 ^ spare * den)) + 2 ^ spare * den → n % 2 = 0) :
    roundedMagnitude num den = n * 2 ^ spare := by
  have place : 0 < 2 ^ spare * den := Nat.mul_pos (Nat.two_pow_pos spare) positive
  simp only [roundedMagnitude, spare_eq, Nat.pow_eq, Nat.mul_comm den]
  rw [roundedQuotient_eq place below above half]

theorem log2_div_eq {num den k : Nat} (positive : 0 < den) (below : 2 ^ k * den ≤ num)
    (above : num < 2 ^ (k + 1) * den) : (num / den).log2 = k := by
  have atLeast := (Nat.le_div_iff_mul_le positive).mpr below
  have nonzero : num / den ≠ 0 := (Nat.lt_of_lt_of_le (Nat.two_pow_pos k) atLeast).ne'
  exact (Nat.log2_eq_iff nonzero).mpr ⟨atLeast, (Nat.div_lt_iff_lt_mul positive).mpr above⟩

/-- A quotient of 53 bits before the spare ones, or of fewer where none are spare. -/
theorem log2_div_sub_eq {num den spare : Nat} (positive : 0 < den)
    (atLeast : spare = 0 ∨ 2 ^ 52 * (2 ^ spare * den) ≤ num)
    (below : num < 2 ^ 53 * (2 ^ spare * den)) : (num / den).log2 - 52 = spare := by
  obtain rfl | atLeast := atLeast
  · rw [Nat.pow_zero, Nat.one_mul] at below
    have small : num / den < 2 ^ 53 := (Nat.div_lt_iff_lt_mul positive).mpr below
    obtain zero | nonzero := Nat.eq_zero_or_pos (num / den)
    · rw [zero, Nat.log2_zero]
    · have := (Nat.log2_lt nonzero.ne').mpr small
      omega
  · rw [log2_div_eq (k := 52 + spare) positive, Nat.add_sub_cancel_left]
    · rwa [Nat.pow_add, Nat.mul_assoc]
    · rwa [Nat.add_right_comm, Nat.pow_add, Nat.mul_assoc]

/-- Every number of the interval is rounded to the magnitude. -/
theorem roundedMagnitude_of_holds {m num den : Nat} (magnitude : 0 < m)
    (bits : 2 ^ (m.log2 - 52) ∣ m) (positive : 0 < den)
    (inside : (interval m).holds (4 * num) den = true) : roundedMagnitude num den = m := by
  obtain ⟨n, spare, h⟩ := exists_significand magnitude bits
  obtain ⟨place, hplace⟩ : ∃ place, 2 ^ spare * den = place := ⟨_, rfl⟩
  have place_pos : 0 < place := hplace ▸ Nat.mul_pos (Nat.two_pow_pos spare) positive
  obtain ⟨below, above, odd⟩ := h.bounds_of_holds hplace inside
  have down := Significand.reach_le n spare place
  have atMost : (n + 1) * place ≤ 2 ^ 53 * place := Nat.mul_le_mul_right place h.atMost
  rw [Nat.add_mul] at atMost
  rw [h.split]
  by_cases less : n = 2 ^ 52 ∧ 0 < spare ∧ num < n * place
  · -- Just below a power of two one more bit is kept.
    obtain ⟨rfl, up, less⟩ := less
    obtain ⟨k, rfl⟩ : ∃ k, spare = k + 1 := ⟨spare - 1, by omega⟩
    have half : 2 * (2 ^ k * den) = place := by rw [← hplace, Nat.pow_succ']; ring
    have near : Significand.reach (2 ^ 52) (k + 1) place = place := if_pos ⟨rfl, up⟩
    have spare_eq : (num / den).log2 - 52 = k :=
      log2_div_sub_eq positive (.inr (by omega)) (by omega)
    rw [roundedMagnitude_eq_of (n := 2 ^ 53) positive spare_eq, Nat.pow_succ]
    · ring
    all_goals omega
  · have atLeast : spare = 0 ∨ 2 ^ 52 * place ≤ num := by
      obtain zero | up := Nat.eq_zero_or_pos spare
      · exact .inl zero
      · obtain rfl | more := Nat.eq_or_lt_of_le (h.full.resolve_left up.ne')
        · omega
        · have := Nat.mul_le_mul_right place (Nat.succ_le_of_lt more)
          rw [Nat.succ_mul] at this
          omega
    have spare_eq := log2_div_sub_eq positive (hplace ▸ atLeast) (by omega)
    refine roundedMagnitude_eq_of positive spare_eq ?_ ?_ ?_ <;> rw [hplace] <;> omega

/-- Where a number lies, in quarters of a unit. -/
def Interval.Mem (i : Interval) (x : ℚ) : Prop :=
  if i.closed then i.low ≤ x ∧ x ≤ i.high else i.low < x ∧ x < i.high

theorem Interval.holds_iff (i : Interval) {x scale : Nat} (positive : 0 < scale) :
    i.holds x scale = true ↔ i.Mem ((x : ℚ) / scale) := by
  have positive : (0 : ℚ) < scale := Nat.cast_pos.mpr positive
  unfold Interval.holds Interval.Mem
  split
  · rw [Bool.and_eq_true, decide_eq_true_eq, decide_eq_true_eq, le_div_iff₀ positive,
      div_le_iff₀ positive]
    norm_cast
  · rw [Bool.and_eq_true, decide_eq_true_eq, decide_eq_true_eq, lt_div_iff₀ positive,
      div_lt_iff₀ positive]
    norm_cast

/-- The number that the digits stand for, in quarters of a unit. -/
def Decimal.quarters (d : Decimal) : ℚ := d.digits * ((4 * one : Nat) * 10 ^ d.exponent)

theorem Decimal.quarters_congr {c d : Decimal}
    (h : (c.digits : ℚ) * 10 ^ c.exponent = d.digits * 10 ^ d.exponent) :
    c.quarters = d.quarters := by
  unfold quarters
  generalize 4 * one = quarter
  rw [mul_left_comm, h, mul_left_comm]

/-- A decimal grid in whole numbers: the magnitude is at `num / scale` quarters and there is a point
of the grid at every multiple of `den / scale`. -/
structure Grid (magnitude quarter : Nat) (exponent : Int) (num den scale : Nat) : Prop where
  scale_pos : 0 < scale
  den_pos : 0 < den
  at_magnitude : num = 4 * magnitude * scale
  point : (den : ℚ) / scale = quarter * 10 ^ exponent

theorem exists_grid (m : Nat) {quarter : Nat} (positive : 0 < quarter) (exponent : Int) :
    ∃ num den scale,
      (if 0 ≤ exponent then (4 * m, quarter * Nat.pow 10 exponent.toNat, 1)
        else (4 * m * Nat.pow 10 (-exponent).toNat, quarter, Nat.pow 10 (-exponent).toNat)) =
          (num, den, scale) ∧ Grid m quarter exponent num den scale := by
  by_cases up : 0 ≤ exponent
  · obtain ⟨k, rfl⟩ := Int.eq_ofNat_of_zero_le up
    refine ⟨_, _, _, if_pos up, Nat.one_pos, ?_, (Nat.mul_one _).symm, ?_⟩
    · exact Nat.mul_pos positive (Nat.pow_pos (by decide))
    · simp
  · obtain ⟨k, rfl⟩ := Int.exists_eq_neg_ofNat (by omega : exponent ≤ 0)
    refine ⟨_, _, _, if_neg up, Nat.pow_pos (by decide), positive, rfl, ?_⟩
    simp [div_eq_mul_inv]

theorem quarter_pos : 0 < 4 * one := by
  have := Double.one_pos
  omega

/-- A grid is tried at two points, one to each side of the magnitude. -/
theorem onGrid_eq_some {m : Nat} {i : Interval} {exponent : Int} {d : Decimal}
    (h : onGrid m i exponent = some d) : d.digits ≠ 0 ∧ i.Mem d.quarters := by
  obtain ⟨num, den, scale, eq, grid⟩ := exists_grid m quarter_pos exponent
  have inside {n : Nat} (h : (i.holds (n * den) scale && n != 0) = true) :
      n ≠ 0 ∧ i.Mem (Decimal.quarters ⟨n, exponent⟩) := by
    rw [Bool.and_eq_true, i.holds_iff grid.scale_pos, bne_iff_ne, Nat.cast_mul, mul_div_assoc,
      grid.point] at h
    exact h.symm
  simp only [onGrid, eq] at h
  split at h
  · cases h
  · cases h
    exact inside ‹_›
  · cases h
    exact inside ‹_›
  · cases h
    obtain rounded | rounded := roundedQuotient_cases num den <;> rw [rounded] <;> exact inside ‹_›

/-- A grid that is finer than half a place of the magnitude has a point in the interval. -/
theorem exists_onGrid {m n spare : Nat} (h : Significand m n spare) {exponent : Int}
    (fine : ((4 * one : Nat) : ℚ) * 10 ^ exponent < 2 * 2 ^ spare) :
    ∃ d, onGrid m (interval m) exponent = some d := by
  obtain ⟨num, den, scale, eq, grid⟩ := exists_grid m quarter_pos exponent
  have scale_pos : (0 : ℚ) < scale := Nat.cast_pos.mpr grid.scale_pos
  have at_magnitude : 4 * (m : ℚ) * scale = num := by exact_mod_cast grid.at_magnitude.symm
  have above : 4 * (m : ℚ) < ((num / den + 1) * den : Nat) / scale := by
    rw [lt_div_iff₀ scale_pos, at_magnitude, Nat.succ_mul]
    exact_mod_cast Nat.lt_div_mul_add grid.den_pos
  have near : ((num / den + 1) * den : Nat) / (scale : ℚ) < 4 * m + 2 * 2 ^ spare := by
    have down : ((num / den * den : Nat) : ℚ) / scale ≤ 4 * m := by
      rw [div_le_iff₀ scale_pos, at_magnitude]
      exact_mod_cast Nat.div_mul_le_self num den
    rw [Nat.add_mul, Nat.one_mul, Nat.cast_add, add_div, grid.point]
    linarith
  have inside :
      ((interval m).holds ((num / den + 1) * den) scale && num / den + 1 != 0) = true := by
    rw [Bool.and_eq_true, Interval.holds_iff _ grid.scale_pos, h.interval_eq]
    refine ⟨?_, by simp⟩
    have low : ((4 * m - Significand.reach n spare (2 ^ spare) : Nat) : ℚ) ≤ 4 * m := by
      exact_mod_cast Nat.sub_le _ _
    have high : ((4 * m + 2 * 2 ^ spare : Nat) : ℚ) = 4 * m + 2 * 2 ^ spare := by push_cast; rfl
    unfold Interval.Mem
    dsimp only
    rw [high]
    split
    · exact ⟨by linarith, near.le⟩
    · exact ⟨by linarith, near⟩
  simp only [onGrid, eq, inside]
  split
  case h_1 => contradiction
  all_goals exact ⟨_, rfl⟩

/-- The search stops at a grid with a point in the interval, if its counts come to one. -/
theorem shortestFrom_onGrid {m : Nat} {i : Interval} {lead : Int} (fuel : Nat) {count : Int}
    (target : Int) (reached : count ≤ target) (enough : target < count + fuel)
    (found : ∃ d, onGrid m i (lead - target + 1) = some d) :
    ∃ exponent, onGrid m i exponent = some (shortestFrom m i lead fuel count) := by
  induction fuel generalizing count with
  | zero => omega
  | succ fuel ih =>
      rw [shortestFrom]
      split
      · rename_i hit
        exact ⟨_, hit⟩
      · rename_i missed
        have later : count ≠ target := by
          rintro rfl
          obtain ⟨d, hit⟩ := found
          cases missed.symm.trans hit
        exact ih (by omega) (by omega)

theorem two_pow_le_ten_pow {bits digits : Nat} (h : bits ≤ 3 * digits) :
    2 ^ bits ≤ 10 ^ digits := by
  calc 2 ^ bits ≤ 2 ^ (3 * digits) := Nat.pow_le_pow_right (by decide) h
    _ = 8 ^ digits := Nat.pow_mul 2 3 digits
    _ ≤ 10 ^ digits := Nat.pow_le_pow_left (by decide) digits

theorem one_le_ten_pow {digits : Nat} (h : 358 ≤ digits) : one ≤ 10 ^ digits := by
  delta one
  generalize hbits : 1074 = bits -- so that nothing evaluates the power
  exact two_pow_le_ten_pow (by omega)

theorem le_leadingPlace {m fuel place : Nat} (h : one ≤ m * 10 ^ (place + fuel)) :
    one ≤ m * 10 ^ leadingPlace m fuel place := by
  induction fuel generalizing place with
  | zero => exact h
  | succ fuel ih =>
      rw [leadingPlace]
      split
      · assumption
      · exact ih (by rwa [Nat.add_right_comm, Nat.add_assoc])

/-- Positive magnitudes are not below the power of ten that they are taken to lead with. -/
theorem leadingExponent_le {m : Nat} (positive : 0 < m) :
    (one : ℚ) * 10 ^ leadingExponent m ≤ m := by
  unfold leadingExponent
  split
  · rename_i large
    have digits : 10 ^ ((toString (m / one)).length - 1) ≤ m / one := by
      have := (Nat.le_div_iff_mul_le one_pos).mpr ((Nat.one_mul one).trans_le large)
      obtain zero | more := Nat.eq_zero_or_pos ((toString (m / one)).length - 1)
      · rwa [zero]
      · refine Nat.not_lt.mp fun less => ?_
        have := (Nat.length_repr_le_iff more).mpr less
        rw [Nat.toString_eq_repr] at more this
        omega
    have length : ((toString (m / one)).length : Int) - 1 =
        (((toString (m / one)).length - 1 : Nat) : Int) := by
      have := Nat.length_repr_pos (n := m / one)
      rw [Nat.toString_eq_repr]
      omega
    rw [length, zpow_natCast]
    have := (Nat.mul_le_mul_left one digits).trans (Nat.mul_div_le m one)
    exact_mod_cast this
  · have places (digits : Nat) (h : 358 ≤ digits) : one ≤ m * 10 ^ digits :=
      (one_le_ten_pow h).trans (Nat.le_mul_of_pos_left _ positive)
    have := le_leadingPlace (places (1 + 400) (by decide))
    rw [zpow_neg, zpow_natCast, ← div_eq_mul_inv, div_le_iff₀ (by positivity)]
    exact_mod_cast this

/-- Twenty digits are enough: the grid is then finer than half a place, as a place is at least the
part `2 ^ -53` of the magnitude. -/
theorem shortest_mem {m : Nat} (positive : 0 < m) (bits : 2 ^ (m.log2 - 52) ∣ m) :
    (shortest m).digits ≠ 0 ∧ (interval m).Mem (shortest m).quarters := by
  obtain ⟨n, spare, h⟩ := exists_significand positive bits
  have size : (m : ℚ) < 2 ^ 53 * 2 ^ spare := by
    have := Nat.mul_lt_mul_of_pos_right h.atMost (Nat.two_pow_pos spare)
    rw [← h.split] at this
    exact_mod_cast this
  have fine : ((4 * one : Nat) : ℚ) * 10 ^ (leadingExponent m - 20 + 1) < 2 * 2 ^ spare := by
    have scaled (lead : Int) : (10 : ℚ) ^ (lead - 20 + 1) * 10 ^ 19 = 10 ^ lead := by
      rw [← zpow_natCast, ← zpow_add₀ (by norm_num)]
      congr 1
      omega
    have lead := leadingExponent_le positive
    rw [← scaled] at lead
    have place : (0 : ℚ) < 2 ^ spare := by positivity
    generalize one = unit at lead ⊢
    push_cast
    linarith
  obtain ⟨exponent, hit⟩ := shortestFrom_onGrid 20 20 (by decide : (1 : Int) ≤ 20)
    (by decide) (exists_onGrid h fine)
  exact onGrid_eq_some hit

theorem infinite_le (places : Nat) (h : 342 ≤ places) : infinite ≤ one * 10 ^ places := by
  delta infinite one
  rw [show 2098 = 1074 + 1024 from rfl]
  generalize 1074 = unit
  generalize hbits : 1024 = bits
  rw [Nat.pow_eq, Nat.pow_eq, Nat.pow_add]
  exact Nat.mul_le_mul_left _ (two_pow_le_ten_pow (by omega))

/-- A decimal that is near to a finite magnitude has no large exponent. -/
theorem exponent_le_of_bounded {m digits k : Nat} (bounded : m < infinite) (nonzero : digits ≠ 0)
    (size : digits * 10 ^ k * one ≤ 2 * m) : k ≤ 400 := by
  by_contra large
  obtain ⟨places, hplaces⟩ : ∃ places, places = 342 := ⟨_, rfl⟩
  have powers : 10 ^ (places + 1) ≤ digits * 10 ^ k :=
    (Nat.pow_le_pow_right (by decide) (by omega)).trans
      (Nat.le_mul_of_pos_left _ (Nat.pos_of_ne_zero nonzero))
  have more := Nat.mul_le_mul_right one powers
  rw [Nat.pow_succ, Nat.mul_right_comm, Nat.mul_comm _ one] at more
  have less := bounded.trans_le (infinite_le places (by omega))
  omega

/-- A decimal with so small an exponent is nearer to zero than half a unit. -/
theorem digits_lt_of_tiny (digits places : Nat) (h : digits.log2 + 1081 < 3 * places) :
    2 * (digits * one) < 10 ^ places := by
  delta one
  generalize hunit : 1074 = unit
  calc 2 * (digits * 2 ^ unit) < 2 * (2 ^ (digits.log2 + 1) * 2 ^ unit) := by
        have := Nat.mul_lt_mul_of_pos_right (Nat.lt_log2_self (n := digits)) (Nat.two_pow_pos unit)
        omega
    _ = 2 ^ (digits.log2 + 2 + unit) := by ring
    _ ≤ 10 ^ places := two_pow_le_ten_pow (by omega)

/-- Any decimal in the interval of a double reads back as the double. -/
theorem ofDecimal?_of_mem {d : Double} (finite : d.Finite) (positive : 0 < d.magnitude)
    {c : Decimal} (nonzero : c.digits ≠ 0) (mem : (interval d.magnitude).Mem c.quarters) :
    ofDecimal? d.negative c.digits c.exponent = some d := by
  obtain ⟨digits, exponent⟩ := c
  obtain ⟨n, spare, h⟩ := exists_significand positive finite.bits
  -- Written as a ratio, the decimal is rounded to the double, and is near to it in size.
  have ratio (num : Nat) {den : Nat} (hden : 0 < den)
      (eq : Decimal.quarters ⟨digits, exponent⟩ = ((4 * (num * one) : Nat) : ℚ) / den) :
      ofRatio? d.negative num den = some d ∧ num * one ≤ 2 * (d.magnitude * den) ∧
        den ≤ 2 * (num * one) := by
    rw [eq, ← Interval.holds_iff _ hden] at mem
    obtain ⟨below, above, -⟩ := h.bounds_of_holds rfl mem
    have down := Significand.reach_le n spare (2 ^ spare * den)
    have place : 2 ^ spare * den ≤ n * (2 ^ spare * den) := Nat.le_mul_of_pos_left _ h.positive
    have unit : den ≤ 2 ^ spare * den := Nat.le_mul_of_pos_left _ (Nat.two_pow_pos spare)
    refine ⟨?_, ?_, by omega⟩
    · rw [ofRatio?, roundedMagnitude_of_holds positive finite.bits hden mem]
      exact if_pos finite.bounded
    · rw [h.split, Nat.mul_assoc]
      omega
  rw [ofDecimal?, if_neg nonzero]
  dsimp only
  by_cases up : 0 ≤ exponent
  · obtain ⟨k, rfl⟩ := Int.eq_ofNat_of_zero_le up
    obtain ⟨exact, size, -⟩ := ratio (digits * 10 ^ k) Nat.one_pos (by
      simp only [Decimal.quarters, zpow_natCast, Nat.cast_mul, Nat.cast_pow, Nat.cast_one]
      ring)
    rw [Nat.mul_one] at size
    have small := exponent_le_of_bounded finite.bounded nonzero size
    rw [if_pos up, if_neg (by omega : ¬ (k : Int) > 400)]
    exact exact
  · obtain ⟨k, rfl⟩ := Int.exists_eq_neg_ofNat (by omega : exponent ≤ 0)
    obtain ⟨exact, -, size⟩ := ratio digits (Nat.pow_pos (by decide : 0 < 10)) (by
      simp only [Decimal.quarters, zpow_neg, zpow_natCast, Nat.cast_mul, Nat.cast_pow]
      ring)
    have near : ¬ (digits.log2 : Int) + 1 < -(-(k : Int)) * 3 - 1080 := by
      intro tiny
      have := digits_lt_of_tiny digits k (by omega)
      omega
    rw [if_neg up, if_neg near, Int.neg_neg]
    exact exact

theorem finite_zero (negative : Bool) : Finite ⟨negative, 0⟩ := by
  refine ⟨Nat.dvd_zero _, ?_⟩
  delta infinite
  generalize 2098 = bits
  exact Nat.two_pow_pos bits

theorem finite_of_ofRatio? {negative : Bool} {num den : Nat} {d : Double}
    (h : ofRatio? negative num den = some d) : d.Finite := by
  unfold ofRatio? at h
  dsimp only at h
  split at h
  · rename_i bounded
    cases h
    exact ⟨bits_roundedMagnitude _ den, bounded⟩
  · cases h

/-- Every decimal that is read at all is read as a finite double. -/
theorem finite_of_ofDecimal? {negative : Bool} {digits : Nat} {exponent : Int} {d : Double}
    (h : ofDecimal? negative digits exponent = some d) : d.Finite := by
  unfold ofDecimal? at h
  dsimp only at h
  split_ifs at h
  · cases h
    exact finite_zero negative
  · exact finite_of_ofRatio? h
  · cases h
    exact finite_zero negative
  · exact finite_of_ofRatio? h

end Double
end EntityGraph
