import EntityGraph.Json.Text
import EntityGraph.Yaml.Scalar

/-!
The values of a relational database: what a JSON value is bound as, what a column keeps of it,
and how kept values compare. A column of numbers takes texts that are numbers as such, a column
of texts takes numbers by their digits.
-/

namespace EntityGraph

namespace Sql

inductive Bound where
  | null
  | bool (b : Bool)
  | int (n : Int)
  | float (d : Double)
  | text (s : String)
deriving DecidableEq, Repr

/-- Lists and objects are bound as their text. -/
def Bound.ofJson : Json → Bound
  | .null => .null
  | .bool b => .bool b
  | .number n =>
      match n.toInt64? with
      | some i => .int i
      | none => .float n.toDouble
  | .string s => .text s
  | v => .text v.text

inductive Cell where
  | null
  | int (n : Int)
  | real (d : Double)
  | text (s : String)
deriving DecidableEq, Repr

def Bound.cell : Bound → Cell
  | .null => .null
  | .bool b => .int b.toNat
  | .int n => .int n
  | .float d => .real d
  | .text s => .text s

inductive ColumnType where
  | integer
  | real
  | text
deriving DecidableEq, Repr

def ColumnType.name : ColumnType → String
  | .integer => "INTEGER"
  | .real => "REAL"
  | .text => "TEXT"

def isSpace (c : Char) : Bool := c = ' ' || (9 ≤ c.toNat && c.toNat ≤ 13)

def fitsInt64 (n : Int) : Bool := -(Nat.pow 2 63) ≤ n && n < Nat.pow 2 63

/-- The exponent after an `e`, which must have digits. -/
def exponentOf? (cs : List Char) : Option Int :=
  match cs with
  | [] => some 0
  | c :: rest =>
      if c = 'e' ∨ c = 'E' then
        let ds := Yaml.dropSign rest
        if ds.isEmpty || !ds.all Json.isDigit then none
        else
          let n : Int := Json.digitsValue ds
          some (if rest.head? = some '-' then -n else n)
      else none

/-- The number that a text is as a whole, blanks around it aside. -/
def numberOf? (s : String) : Option Cell := do
  let cs := ((s.toList.dropWhile isSpace).reverse.dropWhile isSpace).reverse
  let negative := cs.head? = some '-'
  let body := Yaml.dropSign cs
  let whole := body.takeWhile Json.isDigit
  let rest := body.dropWhile Json.isDigit
  let (fraction, rest, pointed) :=
    match rest with
    | '.' :: rest => (rest.takeWhile Json.isDigit, rest.dropWhile Json.isDigit, true)
    | rest => ([], rest, false)
  if whole.isEmpty && fraction.isEmpty then none
  let exponent ← exponentOf? rest
  let n : Int := Json.digitsValue whole
  let n := if negative then -n else n
  if !pointed && rest.isEmpty && fitsInt64 n then return .int n
  let d ← Double.ofDecimal? negative (Json.digitsValue (whole ++ fraction))
    (exponent - fraction.length)
  return .real d

/-- A real that is an integer of 64 bits, short of the two extremes, as that integer. -/
def integral? (d : Double) : Option Int := do
  let n ← d.toInt?
  if -(Nat.pow 2 63) < n ∧ n < Nat.pow 2 63 - 1 then some n else none

/-- The digits of a real: fifteen significant ones at most, and always a point. Zero has no sign. -/
def realText (d : Double) : String :=
  let sign := if d.negative then "-" else ""
  if d.magnitude = 0 then "0.0"
  else
    let lead := Double.leadingExponent d.magnitude
    let places := 14 - lead
    let rounded :=
      if 0 ≤ places then
        Double.roundedQuotient (d.magnitude * Nat.pow 10 places.toNat) Double.one
      else Double.roundedQuotient d.magnitude (Double.one * Nat.pow 10 (-places).toNat)
    let lead := if Nat.pow 10 15 ≤ rounded then lead + 1 else lead
    let (ds, _) := DoubleFormat.trimZeros (toString rounded).toList
    if -4 ≤ lead ∧ lead < 15 then
      if lead < 0 then
        sign ++ "0." ++ String.ofList (List.replicate (-lead - 1).toNat '0' ++ ds)
      else
        let whole := (lead + 1).toNat
        let padded := ds ++ List.replicate (whole - ds.length) '0'
        let fraction := padded.drop whole
        sign ++ String.ofList (padded.take whole) ++ "." ++
          (if fraction.isEmpty then "0" else String.ofList fraction)
    else
      let tail := ds.drop 1
      let digits := toString lead.natAbs
      sign ++ String.ofList (ds.take 1) ++ "." ++
        (if tail.isEmpty then "0" else String.ofList tail) ++ "e" ++
        (if lead < 0 then "-" else "+") ++ (if digits.length < 2 then "0" else "") ++ digits

/-- The text of a value, as text functions see it. -/
def Cell.text? : Cell → Option String
  | .null => none
  | .int n => some (toString n)
  | .real d => some (realText d)
  | .text s => some s

namespace ColumnType

/-- A value as it is compared with a column of the type. -/
def comparand (t : ColumnType) (c : Cell) : Cell :=
  match t, c with
  | .text, .int n => .text (toString n)
  | .text, .real d => .text (realText d)
  | .text, c => c
  | _, .text s => (numberOf? s).getD (.text s)
  | _, c => c

/-- A value as a column of the type keeps it. -/
def keep (t : ColumnType) (c : Cell) : Cell :=
  match t, t.comparand c with
  | .integer, .real d => ((integral? d).map Cell.int).getD (.real d)
  | .real, .int n => .real (Double.ofInt n)
  | .real, .real d => .real (if d.magnitude = 0 then ⟨false, 0⟩ else d)
  | _, c => c

end ColumnType

namespace Cell

/-- Numbers come before texts; null compares with nothing. -/
def compare? : Cell → Cell → Option Ordering
  | .null, _ => none
  | _, .null => none
  | .int a, .int b => some (Ord.compare a b)
  | .int a, .real b => some (Ord.compare (a * Double.one) b.units)
  | .real a, .int b => some (Ord.compare a.units (b * Double.one))
  | .real a, .real b => some (a.compare b)
  | .text a, .text b => some (Ord.compare a b)
  | .text _, _ => some .gt
  | _, .text _ => some .lt

/-- The order of sorting, in which null comes first. -/
def sortOrder (a b : Cell) : Ordering :=
  match a, b with
  | .null, .null => .eq
  | .null, _ => .lt
  | _, .null => .gt
  | a, b => (compare? a b).getD .eq

end Cell

end Sql

end EntityGraph
