import EntityGraph.Dict
import EntityGraph.Number.Double

/-!
JSON values. Objects keep their entries in the order of their keys' arrival, which is the order
in which they are written; it does not count when two values are compared. An integer and a
double are different values even where they are the same number.
-/

namespace EntityGraph

/-- Integers between -2^63 and 2^64 - 1 are kept as such, every other number as a double. -/
inductive Number where
  | int (n : Int)
  | double (d : Double)
deriving DecidableEq, Repr

namespace Number

def toDouble : Number → Double
  | .int n => Double.ofInt n
  | .double d => d

/-- Equality of numbers of one kind; the two zeros of the doubles are equal. -/
def same : Number → Number → Bool
  | .int a, .int b => a == b
  | .double a, .double b => a.same b
  | _, _ => false

/-- The integer, if the number is one that fits into 64 bits with a sign. -/
def toInt64? : Number → Option Int
  | .int n => if n < Nat.pow 2 63 then some n else none
  | .double _ => none

def toNat? : Number → Option Nat
  | .int n => if 0 ≤ n then some n.toNat else none
  | .double _ => none

/-- An integer outside the range of 65 bits turns into the nearest double. -/
def ofInt (n : Int) : Number :=
  if -(Nat.pow 2 63) ≤ n ∧ n < Nat.pow 2 64 then .int n else .double (Double.ofInt n)

end Number

inductive Json where
  | null
  | bool (b : Bool)
  | number (n : Number)
  | string (s : String)
  | array (items : List Json)
  | object (fields : List (String × Json))
deriving Repr

/-- One row of a store, or any other object of named values. -/
abbrev Row := Dict Json

namespace Json

instance : Inhabited Json := ⟨.null⟩

def ofInt (n : Int) : Json := .number (.ofInt n)

def ofNat (n : Nat) : Json := ofInt n

def isNull : Json → Bool
  | .null => true
  | _ => false

def string? : Json → Option String
  | .string s => some s
  | _ => none

def bool? : Json → Option Bool
  | .bool b => some b
  | _ => none

def nat? : Json → Option Nat
  | .number n => n.toNat?
  | _ => none

def array? : Json → Option (List Json)
  | .array items => some items
  | _ => none

/-- The value under a key, null where there is none. -/
def field (row : Row) (name : String) : Json := (Dict.get? row name).getD .null

mutual

/-- Structural equality, in which the order of an object's entries does not count. -/
def same : Json → Json → Bool
  | .null, .null => true
  | .bool a, .bool b => a == b
  | .number a, .number b => a.same b
  | .string a, .string b => a == b
  | .array xs, .array ys => sameItems xs ys
  | .object xs, .object ys => xs.length == ys.length && sameFields xs ys
  | _, _ => false

def sameItems : List Json → List Json → Bool
  | [], [] => true
  | x :: xs, y :: ys => same x y && sameItems xs ys
  | _, _ => false

def sameFields : List (String × Json) → List (String × Json) → Bool
  | [], _ => true
  | (k, v) :: rest, ys =>
      (match Dict.get? ys k with
        | some w => same v w
        | none => false) && sameFields rest ys

end

end Json

end EntityGraph
