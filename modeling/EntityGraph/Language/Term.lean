import EntityGraph.Language.Literal
import EntityGraph.Language.Scan
import EntityGraph.Schema.Document

/-!
The parts of the grammar that schema and request documents share: values, types and directives.
-/

namespace EntityGraph

/-- A name after an at sign, with arguments. -/
structure Directive where
  name : String
  arguments : List (String × Literal)
deriving Repr

namespace Scan

/-- A bare name, which must not begin with the letters of a flag or of null. -/
def symbol : Scan String := do
  skip
  isNot (exactly "true".toList)
  isNot (exactly "false".toList)
  isNot (exactly "null".toList)
  nameHere

def variableName : Scan String := do
  word "$"
  name

def plainValue : Scan Literal :=
  (Literal.number <$> number) <|> (Literal.string <$> string) <|>
    (do word "true"; return .bool true) <|> (do word "false"; return .bool false) <|>
    (do word "null"; return .null) <|> (Literal.symbol <$> symbol)

/-- A value that nests at most `fuel` deep. -/
def valueWithin (withVariables : Bool) : Nat → Scan Literal
  | 0 => failure
  | fuel + 1 =>
      (do if withVariables then Literal.variable <$> variableName else failure) <|> plainValue <|>
        (do
          word "["
          let items ← many (valueWithin withVariables fuel)
          word "]"
          return .list items) <|>
        (do
          word "\x7b"
          let fields ← many do
            let key ← name
            word ":"
            let v ← valueWithin withVariables fuel
            return (key, v)
          word "\x7d"
          return .object (Dict.ofList fields))

def value (withVariables : Bool) : Scan Literal := nested (valueWithin withVariables)

/-- A type in one piece, nothing ignored inside it. -/
def typeWithin : Nat → Scan TypeRef
  | 0 => failure
  | fuel + 1 => do
      let base ← (TypeRef.named <$> nameHere) <|> do
        exactly ['[']
        let item ← typeWithin fuel
        exactly [']']
        return TypeRef.list item
      match ← maybe (exactly ['!']) with
      | some () => return .nonNull base
      | none => return base

def type : Scan TypeRef := do
  skip
  nested typeWithin

def argument (withVariables : Bool) : Scan (String × Literal) := do
  let key ← name
  word ":"
  let v ← value withVariables
  return (key, v)

def arguments (withVariables : Bool) : Scan (List (String × Literal)) := do
  word "("
  let as ← many1 (argument withVariables)
  word ")"
  return as

def directive (withVariables : Bool) : Scan Directive := do
  word "@"
  let n ← name
  let as ← maybe (arguments withVariables)
  return ⟨n, as.getD []⟩

def directives (withVariables : Bool) : Scan (List Directive) := many (directive withVariables)

end Scan

end EntityGraph
