import EntityGraph.Json.Text

/-!
Values as they are written in schema and request documents. Next to what JSON knows there are
variables and bare names; a bare name is not a string until it leaves the document.
-/

namespace EntityGraph

inductive Literal where
  | null
  | bool (b : Bool)
  | number (n : Number)
  | string (s : String)
  | symbol (name : String)
  | variable (name : String)
  | list (items : List Literal)
  | object (fields : List (String × Literal))
deriving Repr

namespace Literal

instance : Inhabited Literal := ⟨.null⟩

mutual

def ofJson : Json → Literal
  | .null => .null
  | .bool b => .bool b
  | .number n => .number n
  | .string s => .string s
  | .array items => .list (ofItems items)
  | .object fields => .object (ofFields fields)

def ofItems : List Json → List Literal
  | [] => []
  | v :: rest => ofJson v :: ofItems rest

def ofFields : List (String × Json) → List (String × Literal)
  | [] => []
  | (k, v) :: rest => (k, ofJson v) :: ofFields rest

end

mutual

/-- A bare name becomes a string; a variable, having no value, null. -/
def toJson : Literal → Json
  | .null => .null
  | .bool b => .bool b
  | .number n => .number n
  | .string s => .string s
  | .symbol name => .string name
  | .variable _ => .null
  | .list items => .array (itemsToJson items)
  | .object fields => .object (fieldsToJson fields)

def itemsToJson : List Literal → List Json
  | [] => []
  | v :: rest => toJson v :: itemsToJson rest

def fieldsToJson : List (String × Literal) → List (String × Json)
  | [] => []
  | (k, v) :: rest => (k, toJson v) :: fieldsToJson rest

end

mutual

/-- The value with `lookup` put in for its variables, or the first of them that has none. -/
def substitute (lookup : String → Option Literal) : Literal → Except String Literal
  | .variable name =>
      match lookup name with
      | some v => .ok v
      | none => .error name
  | .list items => (substituteItems lookup items).map .list
  | .object fields => (substituteFields lookup fields).map .object
  | .null => .ok .null
  | .bool b => .ok (.bool b)
  | .number n => .ok (.number n)
  | .string s => .ok (.string s)
  | .symbol name => .ok (.symbol name)

def substituteItems (lookup : String → Option Literal) :
    List Literal → Except String (List Literal)
  | [] => .ok []
  | v :: rest => do
      let v ← substitute lookup v
      let vs ← substituteItems lookup rest
      return v :: vs

def substituteFields (lookup : String → Option Literal) :
    List (String × Literal) → Except String (List (String × Literal))
  | [] => .ok []
  | (k, v) :: rest => do
      let v ← substitute lookup v
      let vs ← substituteFields lookup rest
      return (k, v) :: vs

end

mutual

def variableNames : Literal → List String
  | .variable name => [name]
  | .list items => itemVariables items
  | .object fields => fieldVariables fields
  | _ => []

def itemVariables : List Literal → List String
  | [] => []
  | v :: rest => variableNames v ++ itemVariables rest

def fieldVariables : List (String × Literal) → List String
  | [] => []
  | (_, v) :: rest => variableNames v ++ fieldVariables rest

end

mutual

/-- Equality, in which the order of an object's fields does not count. -/
def same : Literal → Literal → Bool
  | .null, .null => true
  | .bool a, .bool b => a == b
  | .number a, .number b => a.same b
  | .string a, .string b => a == b
  | .symbol a, .symbol b => a == b
  | .variable a, .variable b => a == b
  | .list xs, .list ys => sameItems xs ys
  | .object xs, .object ys => xs.length == ys.length && sameFields xs ys
  | _, _ => false

def sameItems : List Literal → List Literal → Bool
  | [], [] => true
  | x :: xs, y :: ys => same x y && sameItems xs ys
  | _, _ => false

def sameFields : List (String × Literal) → List (String × Literal) → Bool
  | [], _ => true
  | (k, v) :: rest, ys =>
      (match Dict.get? ys k with
        | some w => same v w
        | none => false) && sameFields rest ys

end

/-- Control characters without an escape of their own are written as four decimal digits. -/
def escapeChar (c : Char) : List Char :=
  if c = '"' then ['\\', '"']
  else if c = '\\' then ['\\', '\\']
  else if c = '\n' then ['\\', 'n']
  else if c = '\r' then ['\\', 'r']
  else if c = '\t' then ['\\', 't']
  else if c.toNat < 32 ∨ (127 ≤ c.toNat ∧ c.toNat < 160) then
    let digits := Nat.toDigits 10 c.toNat
    ['\\', 'u'] ++ List.replicate (4 - digits.length) '0' ++ digits
  else [c]

def quote (s : String) : String := "\"" ++ String.ofList (s.toList.flatMap escapeChar) ++ "\""

mutual

def text : Literal → String
  | .null => "null"
  | .bool b => if b then "true" else "false"
  | .number n => n.text
  | .string s => quote s
  | .symbol name => name
  | .variable name => "$" ++ name
  | .list items => "[" ++ itemsText true items ++ "]"
  | .object fields => "\x7b" ++ fieldsText true fields ++ "\x7d"

def itemsText (first : Bool) : List Literal → String
  | [] => ""
  | v :: rest => (if first then "" else ", ") ++ text v ++ itemsText false rest

def fieldsText (first : Bool) : List (String × Literal) → String
  | [] => ""
  | (k, v) :: rest =>
      (if first then "" else ", ") ++ k ++ ": " ++ text v ++ fieldsText false rest

end

end Literal

end EntityGraph
