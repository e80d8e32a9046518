import Mathlib.Algebra.Order.Group.Nat
import Mathlib.Algebra.Order.Ring.Int
import EntityGraph.Json.Compare

/-!
Integers as doubles. Rounding keeps the order of integers and changes none of at most 53 bits.
Comparing two integers as doubles can therefore go wrong in one way only: two that differ may come
out equal, and then one of them has more than 53 bits.
-/

namespace EntityGraph
namespace Double

/-- A number is rounded down or up, and to an even quotient from the middle. -/
theorem roundedQuotient_nearest (num den : Nat) :
    (roundedQuotient num den = num / den ∧ 2 * (num % den) ≤ den ∨
      roundedQuotient num den = num / den + 1 ∧ den ≤ 2 * (num % den)) ∧
    (2 * (num % den) = den → roundedQuotient num den % 2 = 0) := by
  unfold roundedQuotient
  dsimp only
  split_ifs <;> omega

theorem roundedQuotient_mul {den : Nat} (positive : 0 < den) (k : Nat) :
    roundedQuotient (den * k) den = k := by
  simp [roundedQuotient, Nat.mul_div_cancel_left k positive, positive]

theorem roundedQuotient_mono {n m : Nat} (h : n ≤ m) (den : Nat) :
    roundedQuotient n den ≤ roundedQuotient m den := by
  have quotients : n / den ≤ m / den := Nat.div_le_div_right h
  have split := Nat.div_add_mod n den
  have split' := Nat.div_add_mod m den
  unfold roundedQuotient
  dsimp only
  by_cases same : n / den = m / den
  · rw [same] at split ⊢
    have rests : n % den ≤ m % den := by omega
    split_ifs <;> omega
  · split_ifs <;> omega

/-- Between two powers of two, all numbers are rounded to multiples of one unit. -/
private theorem roundedMagnitude_eq (n : Nat) :
    roundedMagnitude n 1 = roundedQuotient n (2 ^ (n.log2 - 52)) * 2 ^ (n.log2 - 52) := by
  simp [roundedMagnitude]

theorem roundedMagnitude_of_dvd {n : Nat} (h : 2 ^ (n.log2 - 52) ∣ n) :
    roundedMagnitude n 1 = n := by
  obtain ⟨k, hk⟩ := h
  have whole : roundedQuotient n (2 ^ (n.log2 - 52)) = k :=
    (congrArg (roundedQuotient · _) hk).trans (roundedQuotient_mul (Nat.two_pow_pos _) k)
  rw [roundedMagnitude_eq, whole, Nat.mul_comm]
  exact hk.symm

theorem roundedMagnitude_le_two_pow (n : Nat) : roundedMagnitude n 1 ≤ 2 ^ (n.log2 + 1) := by
  have split : 2 ^ (n.log2 - 52) * 2 ^ (n.log2 + 1 - (n.log2 - 52)) = 2 ^ (n.log2 + 1) := by
    rw [← Nat.pow_add]
    congr 1
    omega
  have rounded := roundedQuotient_mono (Nat.le_of_lt (Nat.lt_log2_self (n := n)))
    (2 ^ (n.log2 - 52))
  rw [← split, roundedQuotient_mul (Nat.two_pow_pos _)] at rounded
  rw [roundedMagnitude_eq, ← split, Nat.mul_comm]
  exact Nat.mul_le_mul_left _ rounded

theorem two_pow_le_roundedMagnitude {n : Nat} (h : n ≠ 0) :
    2 ^ n.log2 ≤ roundedMagnitude n 1 := by
  have split : 2 ^ (n.log2 - 52) * 2 ^ (n.log2 - (n.log2 - 52)) = 2 ^ n.log2 := by
    rw [← Nat.pow_add]
    congr 1
    omega
  have rounded := roundedQuotient_mono (Nat.log2_self_le h) (2 ^ (n.log2 - 52))
  rw [← split, roundedQuotient_mul (Nat.two_pow_pos _)] at rounded
  rw [roundedMagnitude_eq, ← split, Nat.mul_comm]
  exact Nat.mul_le_mul_right _ rounded

theorem roundedMagnitude_mono {n m : Nat} (h : n ≤ m) :
    roundedMagnitude n 1 ≤ roundedMagnitude m 1 := by
  obtain rfl | positive := Nat.eq_zero_or_pos n
  · exact Nat.zero_le _
  have hm : m ≠ 0 := by omega
  have logs : n.log2 ≤ m.log2 := (Nat.le_log2 hm).mpr ((Nat.log2_self_le (by omega)).trans h)
  obtain same | less := Nat.eq_or_lt_of_le logs
  · rw [roundedMagnitude_eq, roundedMagnitude_eq, same]
    exact Nat.mul_le_mul_right _ (roundedQuotient_mono h _)
  · -- A power of two lies between the two numbers, and between what they are rounded to.
    calc roundedMagnitude n 1 ≤ 2 ^ (n.log2 + 1) := roundedMagnitude_le_two_pow n
      _ ≤ 2 ^ m.log2 := Nat.pow_le_pow_right (by decide) less
      _ ≤ roundedMagnitude m 1 := two_pow_le_roundedMagnitude hm

/-- A number of at most 53 bits has no more of them in a larger unit. -/
theorem bits_mul_two_pow {n : Nat} (h : n ≤ 2 ^ 53) (unit : Nat) :
    2 ^ ((n * 2 ^ unit).log2 - 52) ∣ n * 2 ^ unit := by
  obtain rfl | positive := Nat.eq_zero_or_pos n
  · simp
  have size : n * 2 ^ unit ≠ 0 := Nat.mul_ne_zero (by omega) (Nat.two_pow_pos unit).ne'
  obtain same | less := Nat.eq_or_lt_of_le h
  · rw [same, ← Nat.pow_add, Nat.log2_two_pow]
    exact Nat.pow_dvd_pow 2 (by omega)
  · have log : (n * 2 ^ unit).log2 < 53 + unit := by
      rw [Nat.log2_lt size, Nat.pow_add]
      exact Nat.mul_lt_mul_of_pos_right less (Nat.two_pow_pos unit)
    exact (Nat.pow_dvd_pow 2 (by omega)).trans (Nat.dvd_mul_left _ _)

/-- Numbers of at most 53 bits are kept, whatever the unit. -/
theorem roundedMagnitude_mul_two_pow {n : Nat} (h : n ≤ 2 ^ 53) (unit : Nat) :
    roundedMagnitude (n * 2 ^ unit) 1 = n * 2 ^ unit :=
  roundedMagnitude_of_dvd (bits_mul_two_pow h unit)

theorem units_ofInt (n : Int) : (ofInt n).units =
    if n < 0 then -(roundedMagnitude (n.natAbs * one) 1 : Int)
    else roundedMagnitude (n.natAbs * one) 1 := by
  by_cases negative : n < 0 <;> simp only [units, ofInt, negative, decide_true, decide_false,
    if_true, if_false, Bool.false_eq_true]

theorem units_ofInt_mono {a b : Int} (h : a ≤ b) : (ofInt a).units ≤ (ofInt b).units := by
  have rounded : ∀ {n m : Nat}, n ≤ m →
      roundedMagnitude (n * one) 1 ≤ roundedMagnitude (m * one) 1 :=
    fun h => roundedMagnitude_mono (Nat.mul_le_mul_right _ h)
  rw [units_ofInt, units_ofInt]
  by_cases ha : a < 0
  · by_cases hb : b < 0
    · have := rounded (n := b.natAbs) (m := a.natAbs) (by omega)
      rw [if_pos ha, if_pos hb]
      omega
    · rw [if_pos ha, if_neg hb]
      omega
  · have := rounded (n := a.natAbs) (m := b.natAbs) (by omega)
    have hb : ¬ b < 0 := by omega
    rw [if_neg ha, if_neg hb]
    omega

theorem exists_one_eq_two_pow : ∃ unit, one = 2 ^ unit := by
  delta one
  generalize 1074 = unit -- so that nothing evaluates the power
  exact ⟨unit, rfl⟩

theorem one_pos : 0 < one := by
  obtain ⟨unit, hunit⟩ := exists_one_eq_two_pow
  rw [hunit]
  exact Nat.two_pow_pos unit

/-- An integer of at most 53 bits is a double. -/
theorem units_ofInt_of_natAbs_le {n : Int} (h : n.natAbs ≤ 2 ^ 53) :
    (ofInt n).units = n * one := by
  obtain ⟨unit, hunit⟩ := exists_one_eq_two_pow
  have kept : roundedMagnitude (n.natAbs * one) 1 = n.natAbs * one := by
    rw [hunit]
    exact roundedMagnitude_mul_two_pow h unit
  rw [units_ofInt, kept, Int.natCast_mul]
  by_cases negative : n < 0
  · rw [if_pos negative, Int.ofNat_natAbs_of_nonpos (by omega), Int.neg_mul, Int.neg_neg]
  · rw [if_neg negative, Int.natAbs_of_nonneg (by omega)]

private theorem units_ofInt_two_pow (bits : Nat) : (ofInt (2 ^ bits)).units = 2 ^ bits * one := by
  obtain ⟨unit, hunit⟩ := exists_one_eq_two_pow
  have size : (2 ^ bits : Int).natAbs = 2 ^ bits := by simp [Int.natAbs_pow]
  have kept : roundedMagnitude (2 ^ bits * one) 1 = 2 ^ bits * one := by
    have := roundedMagnitude_mul_two_pow (n := 1) (by decide) (bits + unit)
    rwa [Nat.one_mul, Nat.pow_add, ← hunit] at this
  have positive : ¬ (2 ^ bits : Int) < 0 := Int.not_lt.mpr (Int.le_of_lt (Int.pow_pos (by decide)))
  rw [units_ofInt, if_neg positive, size, kept]
  push_cast
  rfl

/-- Rounding keeps an integer on its side of a power of two. -/
theorem mul_one_lt_units_ofInt {n m : Int} {bits : Nat} (below : n < 2 ^ bits)
    (above : 2 ^ bits ≤ m) : n * one < (ofInt m).units := by
  calc n * one < 2 ^ bits * one :=
        Int.mul_lt_mul_of_pos_right below (Int.natCast_pos.mpr one_pos)
    _ = (ofInt (2 ^ bits)).units := (units_ofInt_two_pow bits).symm
    _ ≤ (ofInt m).units := units_ofInt_mono above

/-- Two integers that differ may be one double, but they are never in the other order. -/
theorem compare_ofInt (n m : Int) :
    (ofInt n).compare (ofInt m) = Ord.compare n m ∨ (ofInt n).compare (ofInt m) = .eq := by
  unfold Double.compare
  obtain below | rfl | above := Int.lt_trichotomy n m
  · obtain less | same := Int.lt_or_eq_of_le (units_ofInt_mono (Int.le_of_lt below))
    · exact .inl ((compare_lt_iff_lt.mpr less).trans (compare_lt_iff_lt.mpr below).symm)
    · exact .inr (compare_eq_iff_eq.mpr same)
  · exact .inr (compare_eq_iff_eq.mpr rfl)
  · obtain less | same := Int.lt_or_eq_of_le (units_ofInt_mono (Int.le_of_lt above))
    · exact .inl ((compare_gt_iff_gt.mpr less).trans (compare_gt_iff_gt.mpr above).symm)
    · exact .inr (compare_eq_iff_eq.mpr same.symm)

theorem same_eq_true {a b : Double} : a.same b = true ↔ a.compare b = .eq := by
  rw [Double.compare, compare_eq_iff_eq, Double.same, beq_iff_eq]

/-- No other integer has the double of an integer of at most 52 bits and a sign. -/
theorem eq_of_same_ofInt {n k : Int} (h : k.natAbs < 2 ^ 53)
    (same : (ofInt n).same (ofInt k) = true) : n = k := by
  have same : (ofInt n).units = (ofInt k).units := by simpa [Double.same] using same
  have positive : 0 < (one : Int) := Int.natCast_pos.mpr one_pos
  obtain below | rfl | above := Int.lt_trichotomy n k
  · have atMost := units_ofInt_mono (show n ≤ k - 1 by omega)
    rw [same, units_ofInt_of_natAbs_le (by omega), units_ofInt_of_natAbs_le (by omega)] at atMost
    have := Int.le_of_mul_le_mul_right atMost positive
    omega
  · rfl
  · have atLeast := units_ofInt_mono (show k + 1 ≤ n by omega)
    rw [same, units_ofInt_of_natAbs_le (by omega), units_ofInt_of_natAbs_le (by omega)] at atLeast
    have := Int.le_of_mul_le_mul_right atLeast positive
    omega

end Double
end EntityGraph
