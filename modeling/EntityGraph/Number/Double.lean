/-!
Finite binary64 numbers, held exactly. The smallest positive one is 2^-1074 and every other is
a multiple of it, so a sign and a count of that unit say which number is meant. Nothing is
added or multiplied here: doubles are read from a decimal, made from an integer, compared and
printed.
-/

namespace EntityGraph

/-- `magnitude` counts units of 2^-1074. The two zeros differ in `negative` only. -/
structure Double where
  negative : Bool
  magnitude : Nat
deriving DecidableEq, Repr

namespace Double

/-- How many units make the number one. -/
def one : Nat := Nat.pow 2 1074

/-- The first magnitude that is no longer finite. -/
def infinite : Nat := Nat.pow 2 2098

/-- The signed count of units: equal for numbers that are equal, ordered as they are. -/
def units (d : Double) : Int := if d.negative then -(d.magnitude : Int) else d.magnitude

/-- The quotient rounded to the nearest whole number, a half to the even neighbour. -/
def roundedQuotient (num den : Nat) : Nat :=
  let q := num / den
  let r := num % den
  if 2 * r < den then q
  else if den < 2 * r then q + 1
  else if q % 2 = 0 then q else q + 1

/-- The magnitude nearest to `num / den` units among those with at most 53 significant bits. -/
def roundedMagnitude (num den : Nat) : Nat :=
  let spare := (num / den).log2 - 52
  roundedQuotient num (den * Nat.pow 2 spare) * Nat.pow 2 spare

def ofRatio? (negative : Bool) (num den : Nat) : Option Double :=
  let m := roundedMagnitude (num * one) den
  if m < infinite then some ⟨negative, m⟩ else none

/-- The double nearest to an integer of at most a thousand bits. -/
def ofInt (n : Int) : Double := ⟨decide (n < 0), roundedMagnitude (n.natAbs * one) 1⟩

/-- The double nearest to `digits * 10 ^ exponent`, none when it is too large. An exponent
beyond a few hundred more than the count of digits decides the answer without the power. -/
def ofDecimal? (negative : Bool) (digits : Nat) (exponent : Int) : Option Double :=
  if digits = 0 then some ⟨negative, 0⟩
  else
    let size : Int := digits.log2
    if 0 ≤ exponent then
      if exponent > 400 then none else ofRatio? negative (digits * Nat.pow 10 exponent.toNat) 1
    else if size + 1 < -exponent * 3 - 1080 then some ⟨negative, 0⟩
    else ofRatio? negative digits (Nat.pow 10 (-exponent).toNat)

def toInt? (d : Double) : Option Int :=
  if d.magnitude % one = 0 then
    let n : Int := (d.magnitude / one : Nat)
    some (if d.negative then -n else n)
  else none

def compare (a b : Double) : Ordering := Ord.compare a.units b.units

def same (a b : Double) : Bool := a.units == b.units

end Double

end EntityGraph
