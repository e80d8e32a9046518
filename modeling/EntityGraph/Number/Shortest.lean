import EntityGraph.Number.Double

/-!
The fewest decimal digits that read back as a given double. The reals that round to a double
form an interval; for one digit, two digits and so on the two neighbours of the double on that
decimal grid are tried, and the first grid with a neighbour inside the interval wins.
-/

namespace EntityGraph

namespace Double

/-- `digits * 10 ^ exponent`. -/
structure Decimal where
  digits : Nat
  exponent : Int
deriving DecidableEq, Repr

/-- The interval of reals that round to a magnitude, in quarters of a unit. -/
structure Interval where
  low : Nat
  high : Nat
  /-- Whether the two ends belong to it. -/
  closed : Bool

def interval (magnitude : Nat) : Interval :=
  let spare := magnitude.log2 - 52
  let significand := magnitude / Nat.pow 2 spare
  let lower :=
    if significand = Nat.pow 2 52 ∧ 0 < spare then Nat.pow 2 spare else 2 * Nat.pow 2 spare
  { low := 4 * magnitude - lower
    high := 4 * magnitude + 2 * Nat.pow 2 spare
    closed := significand % 2 = 0 }

/-- Whether `x / scale` quarters of a unit lie in the interval. -/
def Interval.holds (i : Interval) (x scale : Nat) : Bool :=
  if i.closed then i.low * scale ≤ x && x ≤ i.high * scale
  else i.low * scale < x && x < i.high * scale

/-- The place of the leading decimal digit below one, counted from the point. -/
def leadingPlace (magnitude : Nat) : Nat → Nat → Nat
  | 0, place => place
  | fuel + 1, place =>
      if one ≤ magnitude * Nat.pow 10 place then place else leadingPlace magnitude fuel (place + 1)

def leadingExponent (magnitude : Nat) : Int :=
  if one ≤ magnitude then ((toString (magnitude / one)).length : Int) - 1
  else -(leadingPlace magnitude 400 1 : Int)

/-- The neighbour of the magnitude on the grid of multiples of `10 ^ exponent` that lies in the
interval; of two the nearer, of two as near the even one. -/
def onGrid (magnitude : Nat) (i : Interval) (exponent : Int) : Option Decimal :=
  let quarter := 4 * one
  let (num, den, scale) :=
    if 0 ≤ exponent then (4 * magnitude, quarter * Nat.pow 10 exponent.toNat, 1)
    else (4 * magnitude * Nat.pow 10 (-exponent).toNat, quarter, Nat.pow 10 (-exponent).toNat)
  let below := num / den
  let inside (d : Nat) : Bool := i.holds (d * den) scale && d != 0
  match inside below, inside (below + 1) with
  | false, false => none
  | true, false => some ⟨below, exponent⟩
  | false, true => some ⟨below + 1, exponent⟩
  | true, true => some ⟨roundedQuotient num den, exponent⟩

def shortestFrom (magnitude : Nat) (i : Interval) (lead : Int) : Nat → Int → Decimal
  | 0, _ => ⟨roundedQuotient (4 * magnitude) (4 * one), 0⟩
  | fuel + 1, count =>
      match onGrid magnitude i (lead - count + 1) with
      | some d => d
      | none => shortestFrom magnitude i lead fuel (count + 1)

/-- The shortest decimal of a positive magnitude. -/
def shortest (magnitude : Nat) : Decimal :=
  shortestFrom magnitude (interval magnitude) (leadingExponent magnitude) 20 1

end Double

/-- The written form of doubles: positional while the leading digit's exponent lies between
`least` and `most`, always with a point; else one digit, the fraction and the exponent. -/
structure DoubleFormat where
  least : Int
  most : Int
  positiveSign : String

namespace DoubleFormat

/-- Digits without the zeros at their end, and how many zeros were dropped. -/
def trimZeros (digits : List Char) : List Char × Nat :=
  let kept := (digits.reverse.dropWhile (· == '0')).reverse
  (kept, digits.length - kept.length)

def write (f : DoubleFormat) (d : Double) : String :=
  let sign := if d.negative then "-" else ""
  if d.magnitude = 0 then sign ++ "0.0"
  else
    let short := Double.shortest d.magnitude
    let (ds, zeros) := trimZeros (toString short.digits).toList
    let exponent : Int := short.exponent + zeros
    let lead : Int := exponent + ds.length - 1
    let body :=
      if f.least ≤ lead ∧ lead ≤ f.most then
        if lead < 0 then "0." ++ String.ofList (List.replicate (-lead - 1).toNat '0' ++ ds)
        else
          let whole := (lead + 1).toNat
          let padded := ds ++ List.replicate (whole - ds.length) '0'
          let fraction := padded.drop whole
          String.ofList (padded.take whole) ++ "." ++
            (if fraction.isEmpty then "0" else String.ofList fraction)
      else
        let tail := ds.drop 1
        String.ofList (ds.take 1) ++ (if tail.isEmpty then "" else "." ++ String.ofList tail) ++
          "e" ++ (if lead < 0 then "" else f.positiveSign) ++ toString lead
    sign ++ body

end DoubleFormat

end EntityGraph
