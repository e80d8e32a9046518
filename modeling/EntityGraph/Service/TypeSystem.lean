import EntityGraph.Service.TypeTable
import EntityGraph.SchemaError

/-!
The type system that a schema document makes. Definitions with one name are one type; a name that
is used and declared nowhere is a scalar. Interfaces and unions take no part. A type system is
made only of definitions that pass the checks for schemas.
-/

namespace EntityGraph

namespace Service

/-- The definitions of a document, those with one name put together in document order. -/
structure Outline where
  objects : Dict (List Schema.Field) := []
  inputs : Dict (List Schema.Input) := []
  enums : Dict (List String) := []
  scalars : List String := []

/-- Adds `more` to what stands under `key`. -/
def extend {α : Type} (d : Dict (List α)) (key : String) (more : List α) : Dict (List α) :=
  Dict.insert d key ((Dict.get? d key).getD [] ++ more)

namespace Outline

def add (o : Outline) : Schema.Definition → Outline
  | .object name fields => { o with objects := extend o.objects name fields }
  | .input name fields => { o with inputs := extend o.inputs name fields }
  | .enum name values => { o with enums := extend o.enums name values }
  | .scalar name => { o with scalars := o.scalars ++ [name] }
  | .interface _ | .union _ => o

def ofDefinitions (ds : List Schema.Definition) : Outline := ds.foldl add {}

def fieldReferences (f : Schema.Field) : List String :=
  f.type.base :: f.arguments.map (·.type.base)

/-- The type names that fields, arguments and input fields use. -/
def references (o : Outline) : List String :=
  o.objects.flatMap (fun (_, fields) => fields.flatMap fieldReferences) ++
    o.inputs.flatMap (fun (_, fields) => fields.map (·.type.base))

def declared (o : Outline) : List String :=
  o.objects.keys ++ o.inputs.keys ++ o.enums.keys ++ o.scalars

def undeclared (o : Outline) : List String :=
  (o.references.filter fun n => !(o.declared ++ TypeTable.builtIns).contains n).foldl
    (fun done n => if done.contains n then done else done ++ [n]) []

def closed (o : Outline) : Outline := { o with scalars := o.scalars ++ o.undeclared }

/-- The types of an outline. Of two types with one name the later counts. -/
def table (o : Outline) : TypeTable :=
  Dict.ofList <|
    o.objects.map (fun (name, fields) => (name, .object fields)) ++
    o.inputs.map (fun (name, fields) => (name, .input fields)) ++
    o.enums.map (fun (name, values) => (name, .enum values)) ++
    o.scalars.map (fun name => (name, .scalar))

end Outline

namespace TypeTable

def isReserved (name : String) : Bool := "__".toList.isPrefixOf name.toList

def acceptsInput (t : TypeTable) (i : Schema.Input) : Bool :=
  !isReserved i.name && ((get? t i.type.base).map (·.isInput)).getD false

def acceptsField (t : TypeTable) (f : Schema.Field) : Bool :=
  !isReserved f.name && ((get? t f.type.base).map (·.isOutput)).getD false &&
    decide (f.arguments.map (·.name)).Nodup && f.arguments.all (acceptsInput t)

/-- The input types that a value of the type must contain a value of. -/
def required (t : TypeTable) (name : String) : List String :=
  match get? t name with
  | some (.input fields) => fields.filterMap fun i =>
      match i.type with
      | .nonNull (.named n) => some n
      | _ => none
  | _ => []

/-- The names that lie at most `steps` requirements away from `names`. -/
def requiredWithin (t : TypeTable) : Nat → List String → List String
  | 0, names => names
  | n + 1, names => requiredWithin t n (names ++ names.flatMap (required t)).eraseDups

/-- Whether a value of the type would have to contain another one of the same type. -/
def requiresItself (t : TypeTable) (name : String) : Bool :=
  (requiredWithin t t.length (required t name)).contains name

def acceptsType (t : TypeTable) (name : String) : TypeDefinition → Bool
  | .object fields =>
      !fields.isEmpty && decide (fields.map (·.name)).Nodup && fields.all (acceptsField t)
  | .input fields =>
      decide (fields.map (·.name)).Nodup && fields.all (acceptsInput t) && !requiresItself t name
  | .enum values => decide values.Nodup
  | .scalar => true

def isObject (t : TypeTable) (name : String) : Bool :=
  match get? t name with
  | some (.object _) => true
  | _ => false

/-- The checks that make definitions a schema. -/
def isSchema (t : TypeTable) : Bool :=
  t.all fun (name, type) =>
    !builtIns.contains name && !Dict.contains metaTypes name && acceptsType t name type

end TypeTable

/-- A checked table of types, with a query type and maybe a mutation type. -/
structure TypeSystem where
  types : TypeTable
  hasMutation : Bool
deriving Repr

namespace TypeSystem

def ofDefinitions (ds : List Schema.Definition) : Except SchemaError TypeSystem :=
  let outline := Outline.ofDefinitions ds
  if !outline.objects.contains "Query" then throw .noQueryType
  else
    let table := outline.closed.table
    let hasMutation := outline.objects.contains "Mutation"
    if table.isSchema && table.isObject "Query" && (!hasMutation || table.isObject "Mutation") then
      return ⟨table, hasMutation⟩
    else throw .invalidDocument

def ofText (text : String) : Except SchemaError TypeSystem :=
  match Schema.readDocument? text with
  | some ds => ofDefinitions ds
  | none => throw .invalidDocument

end TypeSystem

end Service

end EntityGraph
