import EntityGraph.Json.Reader

/-!
What an unquoted YAML scalar stands for when nothing particular is asked of it.
-/

namespace EntityGraph

namespace Yaml

inductive ScalarKind where
  | null
  | bool (b : Bool)
  | natural (n : Nat)
  /-- A negative integer, a fraction, an infinity or not a number. -/
  | number
  | text
deriving DecidableEq, Repr

def isNullWord (s : String) : Bool := s = "~" || s = "null" || s = "Null" || s = "NULL"

def boolWord? (s : String) : Option Bool :=
  if s = "true" ∨ s = "True" ∨ s = "TRUE" then some true
  else if s = "false" ∨ s = "False" ∨ s = "FALSE" then some false
  else none

def radixValue? (radix : Nat) (cs : List Char) : Option Nat :=
  if cs.isEmpty then none
  else cs.foldlM (fun n c => do
    let d ← Json.hexValue? c
    if d < radix then some (n * radix + d) else none) 0

def dropSign : List Char → List Char
  | '-' :: rest => rest
  | '+' :: rest => rest
  | cs => cs

def dropPlus : List Char → List Char
  | '+' :: rest => rest
  | cs => cs

/-- Digits with a superfluous zero in front are a text. -/
def isPaddedDigits (cs : List Char) : Bool :=
  match dropSign cs with
  | '0' :: c :: rest => (c :: rest).all Json.isDigit
  | _ => false

/-- An integer without a sign but a plus, in one of four radices. -/
def unsigned? (cs : List Char) : Option Nat :=
  let body := dropPlus cs
  let special :=
    match body with
    | '0' :: 'x' :: rest => radixValue? 16 rest
    | '0' :: 'o' :: rest => radixValue? 8 rest
    | '0' :: 'b' :: rest => radixValue? 2 rest
    | _ => none
  match special with
  | some n => some n
  | none => if isPaddedDigits cs then none else radixValue? 10 body

def isExponent (cs : List Char) : Bool :=
  match cs with
  | [] => true
  | c :: rest =>
      (c = 'e' || c = 'E') &&
        (let ds := dropSign rest
         !ds.isEmpty && ds.all Json.isDigit)

/-- A decimal with an optional point, fraction and exponent. -/
def isDecimal (cs : List Char) : Bool :=
  let body := dropSign cs
  let whole := body.takeWhile Json.isDigit
  match body.dropWhile Json.isDigit with
  | '.' :: rest =>
      let fraction := rest.takeWhile Json.isDigit
      !(whole.isEmpty && fraction.isEmpty) && isExponent (rest.dropWhile Json.isDigit)
  | rest => !whole.isEmpty && isExponent rest

def isInfinityWord (cs : List Char) : Bool :=
  let s := String.ofList (dropSign cs)
  s = ".inf" || s = ".Inf" || s = ".INF"

def isNanWord (s : String) : Bool := s = ".nan" || s = ".NaN" || s = ".NAN"

def isNumber (s : String) : Bool :=
  let cs := s.toList
  isInfinityWord cs || isNanWord s || (!isPaddedDigits cs && isDecimal cs)

def isNegativeInteger (cs : List Char) : Bool :=
  match cs with
  | '-' :: rest => (match rest with
      | '+' :: _ | '-' :: _ => false
      | _ => (unsigned? rest).isSome)
  | _ => false

def scalarKind (s : String) : ScalarKind :=
  if s.isEmpty || isNullWord s then .null
  else match boolWord? s with
    | some b => .bool b
    | none =>
        match unsigned? s.toList with
        | some n => .natural n
        | none => if isNegativeInteger s.toList || isNumber s then .number else .text

end Yaml

end EntityGraph
