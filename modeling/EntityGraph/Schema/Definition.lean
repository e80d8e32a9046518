import EntityGraph.Language.Term

/-!
What a schema document declares, read from its text. Descriptions, directives and interfaces of
object types are read and dropped; so are schema and directive declarations. An extension counts
as one more definition of its type.
-/

namespace EntityGraph

namespace Schema

structure Input where
  name : String
  type : TypeRef
  default? : Option Literal := none
deriving Repr

structure Field where
  name : String
  arguments : List Input
  type : TypeRef
deriving Repr

inductive Definition where
  | object (name : String) (fields : List Field)
  | input (name : String) (fields : List Input)
  | enum (name : String) (values : List String)
  | scalar (name : String)
  | interface (name : String)
  | union (name : String)
deriving Repr

open Scan

/-- The keyword of a definition, a description before it. -/
def opening (keyword : String) : Scan Unit := do
  let _ ← maybe string
  word keyword

def extending (keyword : String) : Scan Unit := do
  word "extend"
  word keyword

def braced {α : Type} (p : Scan α) : Scan (List α) := do
  word "\x7b"
  let items ← many1 p
  word "\x7d"
  return items

def input : Scan Input := do
  let _ ← maybe string
  let n ← name
  word ":"
  let t ← type
  let d ← maybe do
    word "="
    value false
  let _ ← directives false
  return ⟨n, t, d⟩

def fieldArguments : Scan (List Input) := do
  word "("
  let inputs ← many1 input
  word ")"
  return inputs

def field : Scan Field := do
  let _ ← maybe string
  let n ← name
  let as ← maybe fieldArguments
  word ":"
  let t ← type
  let _ ← directives false
  return ⟨n, as.getD [], t⟩

def enumValue : Scan String := do
  let _ ← maybe string
  let v ← symbol
  let _ ← directives false
  return v

/-- Names with `separator` between them and maybe before the first. -/
def separated (separator : String) : Scan (List String) := do
  let _ ← maybe (word separator)
  let first ← name
  let rest ← many do
    word separator
    name
  return first :: rest

def implemented : Scan (List String) := do
  word "implements"
  separated "&"

/-- A type with a body, of which an extension must change something. -/
def bodied {α : Type} (keyword : String) (interfaces : Bool) (body : Scan (List α)) :
    Scan (String × List α) :=
  (do
    opening keyword
    let n ← name
    if interfaces then
      let _ ← maybe implemented
    let _ ← directives false
    let items ← maybe body
    return (n, items.getD [])) <|>
  (do
    extending keyword
    let n ← name
    let is ← if interfaces then maybe implemented else pure none
    let ds ← directives false
    let items ← maybe body
    if is.isNone && ds.isEmpty && items.isNone then failure
    return (n, items.getD []))

def members : Scan (List String) := do
  word "="
  separated "|"

def typeDefinition : Scan Definition :=
  ((fun (n, _) => .scalar n) <$> scalarDefinition) <|>
  ((fun (n, fields) => .object n fields) <$> bodied "type" true (braced field)) <|>
  ((fun (n, _) => .interface n) <$> bodied "interface" true (braced field)) <|>
  ((fun (n, _) => .union n) <$> bodied "union" false members) <|>
  ((fun (n, values) => .enum n values) <$> bodied "enum" false (braced enumValue)) <|>
  ((fun (n, fields) => .input n fields) <$> bodied "input" false (braced input))
where
  scalarDefinition : Scan (String × List Directive) :=
    (do
      opening "scalar"
      let n ← name
      let ds ← directives false
      return (n, ds)) <|>
    (do
      extending "scalar"
      let n ← name
      let ds ← many1 (directive false)
      return (n, ds))

def rootOperation : Scan Unit := do
  word "query" <|> word "mutation" <|> word "subscription"
  word ":"
  let _ ← name

def schemaDefinition : Scan Unit :=
  (do
    word "schema"
    let _ ← directives false
    let _ ← braced rootOperation) <|>
  (do
    extending "schema"
    let ds ← directives false
    let operations ← maybe (braced rootOperation)
    if ds.isEmpty && operations.isNone then failure)

def locations : List String :=
  ["QUERY", "MUTATION", "SUBSCRIPTION", "FIELD_DEFINITION", "FIELD", "FRAGMENT_DEFINITION",
   "FRAGMENT_SPREAD", "INLINE_FRAGMENT", "VARIABLE_DEFINITION", "SCHEMA", "SCALAR", "OBJECT",
   "ARGUMENT_DEFINITION", "INTERFACE", "UNION", "ENUM_VALUE", "ENUM", "INPUT_OBJECT",
   "INPUT_FIELD_DEFINITION"]

def location : Scan Unit := locations.foldr (fun l p => word l <|> p) failure

def directiveDefinition : Scan Unit := do
  opening "directive"
  word "@"
  let _ ← name
  let _ ← maybe fieldArguments
  let _ ← maybe (word "repeatable")
  word "on"
  let _ ← maybe (word "|")
  location
  let _ ← many do
    word "|"
    location

def documentItem : Scan (Option Definition) :=
  ((fun _ => none) <$> schemaDefinition) <|> (some <$> typeDefinition) <|>
    ((fun _ => none) <$> directiveDefinition)

/-- The type definitions of a document, in its order. -/
def readDocument? (text : String) : Option (List Definition) :=
  (whole? (many1 documentItem) text).map fun items => items.filterMap id

end Schema

end EntityGraph
