import EntityGraph.Json.Basic
import EntityGraph.Number.Shortest

/-!
The compact written form of JSON values: no blanks, entries in order, strings in double quotes
with the seven short escapes, other control characters as four hexadecimal digits.
-/

namespace EntityGraph

/-- Positional from 0.00001 up to sixteen digits before the point, else with a signed exponent. -/
def Number.doubleFormat : DoubleFormat := ⟨-5, 15, "+"⟩

def Number.text : Number → String
  | .int n => toString n
  | .double d => Number.doubleFormat.write d

namespace Json

def hexDigit (n : Nat) : Char := if n < 10 then Char.ofNat (48 + n) else Char.ofNat (87 + n)

def escapeChar (c : Char) : List Char :=
  if c = '"' then ['\\', '"']
  else if c = '\\' then ['\\', '\\']
  else if c = '\n' then ['\\', 'n']
  else if c = '\r' then ['\\', 'r']
  else if c = '\t' then ['\\', 't']
  else if c.toNat = 8 then ['\\', 'b']
  else if c.toNat = 12 then ['\\', 'f']
  else if c.toNat < 32 then ['\\', 'u', '0', '0', hexDigit (c.toNat / 16), hexDigit (c.toNat % 16)]
  else [c]

def quote (s : String) : String :=
  "\"" ++ String.ofList (s.toList.flatMap escapeChar) ++ "\""

mutual

def text : Json → String
  | .null => "null"
  | .bool b => if b then "true" else "false"
  | .number n => n.text
  | .string s => quote s
  | .array items => "[" ++ itemsText true items ++ "]"
  | .object fields => "\x7b" ++ fieldsText true fields ++ "\x7d"

def itemsText (first : Bool) : List Json → String
  | [] => ""
  | v :: rest => (if first then "" else ",") ++ text v ++ itemsText false rest

def fieldsText (first : Bool) : List (String × Json) → String
  | [] => ""
  | (k, v) :: rest =>
      (if first then "" else ",") ++ quote k ++ ":" ++ text v ++ fieldsText false rest

end

end Json

end EntityGraph
