import EntityGraph.Descriptor.Record
import EntityGraph.Entity.Basic
import EntityGraph.Options
import EntityGraph.Json.Reader
import EntityGraph.Yaml.Reader

/-!
Descriptor files: a list of entities and the options, each with its accepted spellings.
-/

namespace EntityGraph

structure DescriptorFile where
  entities : List Entity := []
  options : Options := {}
deriving Repr

namespace Document

/-- An unquoted scalar as the value that it looks like. -/
def settled : Document → Document
  | .plain s =>
      match Yaml.scalarKind s with
      | .null => .null
      | .bool b => .bool b
      | .natural n => .number (.int n)
      | .number => .number (.double (Double.ofInt 0))
      | .text => .text s
  | d => d

/-- The fields of a record that is one of several choices: keys are looked at as the values they
look like, and a natural number is the place of a field. -/
def choiceFields? (names : List String) :
    List (Document × Document) → Option (List (Nat × Document))
  | [] => some []
  | (k, v) :: rest => do
      let found ←
        match k.settled with
        | .text s => some (names.findIdx? (· = s))
        | .number (.int n) => some (if n < names.length then some n.toNat else none)
        | _ => none
      let fields ← choiceFields? names rest
      match found with
      | none => return fields
      | some i => if fields.any (·.1 = i) then none else return (i, v) :: fields

def choiceText? (d : Document) : Option String :=
  match d.settled with
  | .text s => some s
  | _ => none

def choiceOptionalText? : Option Document → Option (Option String)
  | none => some none
  | some d =>
      match d.settled with
      | .null => some none
      | .text s => some (some s)
      | _ => none

end Document

namespace Field

/-- The types `object` and `relation` stand for a relation. -/
def ofType (type : String) (relationName : Option String) : Field :=
  if type = "object" ∨ type = "relation" then .relation relationName else .scalar ⟨type⟩

def ofRelationChoice? (entries : List (Document × Document)) : Option Field := do
  let fields ← Document.choiceFields? ["relation"] entries
  let name ← Document.choiceText? (← fields.lookup 0)
  return .relation (some name)

def ofTypeChoice? (entries : List (Document × Document)) : Option Field := do
  let fields ← Document.choiceFields? ["type", "relationName"] entries
  let type ← Document.choiceText? (← fields.lookup 0)
  let name ← Document.choiceOptionalText? (fields.lookup 1)
  return ofType type name

/-- A type's name, a table with the name of a relation, or a table with a type. -/
def read : DocumentReader Field := fun d =>
  if !d.isWhole then .error .malformed
  else match d.settled with
    | .text s => .ok (ofType s none)
    | .table entries =>
        match (ofRelationChoice? entries).or (ofTypeChoice? entries) with
        | some field => .ok field
        | none => .error .malformed
    | _ => .error .malformed

end Field

inductive RelationKind where
  | one
  | many
  | manyThrough
deriving DecidableEq, Repr

namespace RelationKind

def ofName? (s : String) : Option RelationKind :=
  if s = "one" then some .one
  else if s = "many" then some .many
  else if s = "many_through" ∨ s = "manyThrough" then some .manyThrough
  else none

/-- A name, or a table with the name as its only key and nothing under it. -/
def read : DocumentReader RelationKind := fun d =>
  let name :=
    match d with
    | .text s => some s
    | .plain s => some s
    | .table [(.text s, .null)] => some s
    | _ => none
  match name.bind ofName? with
  | some kind => .ok kind
  | none => .error .malformed

end RelationKind

inductive JoinPart where
  | near (column : String)
  | far (column : String)

namespace Join

def slots : List (Document.Slot JoinPart) :=
  [⟨["from"], fun d => return .near (← d.readText)⟩,
   ⟨["to"], fun d => return .far (← d.readText)⟩]

def read (positions : Bool) : DocumentReader Join := fun d => do
  let parts ← d.readRecord positions slots
  let near := parts.findSome? fun
    | .near c => some c
    | _ => none
  let far := parts.findSome? fun
    | .far c => some c
    | _ => none
  match near, far with
  | some near, some far => return ⟨near, far⟩
  | _, _ => throw .malformed

end Join

inductive RelationPart where
  | kind (k : RelationKind)
  | target (name : String)
  | join (j : Join)
  | via (name : Option String)
  | exposed (on : Bool)
  | exposedAs (name : Option String)

namespace Relation

def slots (positions : Bool) : List (Document.Slot RelationPart) :=
  [⟨["kind"], fun d => return .kind (← RelationKind.read d)⟩,
   ⟨["target"], fun d => return .target (← d.readText)⟩,
   ⟨["join"], fun d => return .join (← Join.read positions d)⟩,
   ⟨["via", "throughRelation"], fun d => return .via (← d.readOptionalText)⟩,
   ⟨["exposeInApi"], fun d => return .exposed (← d.readBool)⟩,
   ⟨["exposedAs"], fun d => return .exposedAs (← d.readOptionalText)⟩]

def cardinalityOf (kind : RelationKind) (via : Option String) (target : String) :
    Except DescriptorError Cardinality :=
  match kind, via with
  | .one, _ => .ok .one
  | .many, _ => .ok .many
  | .manyThrough, some via => .ok (.manyThrough via)
  | .manyThrough, none => .error (.missingVia target)

def read (positions : Bool) : DocumentReader Relation := fun d => do
  let parts ← d.readRecord positions (slots positions)
  let kind := parts.findSome? fun
    | .kind k => some k
    | _ => none
  let target := parts.findSome? fun
    | .target t => some t
    | _ => none
  let join := parts.findSome? fun
    | .join j => some j
    | _ => none
  let via := parts.findSome? fun
    | .via v => v
    | _ => none
  let exposed := parts.findSome? fun
    | .exposed b => some b
    | _ => none
  let exposedAs := parts.findSome? fun
    | .exposedAs n => n
    | _ => none
  match kind, target, join with
  | some kind, some target, some join =>
      let cardinality ← cardinalityOf kind via target
      return ⟨cardinality, target, join, exposed.getD true, exposedAs⟩
  | _, _, _ => throw .malformed

end Relation

inductive ApiPart where
  | defaultQueries (on : Bool)
  | defaultMutations (on : Bool)
  | primaryField (name : Option String)
  | extraProps (on : Bool)

namespace ApiOptions

def slots : List (Document.Slot ApiPart) :=
  [⟨["generateDefaultQueries"], fun d => return .defaultQueries (← d.readBool)⟩,
   ⟨["generateDefaultMutations"], fun d => return .defaultMutations (← d.readBool)⟩,
   ⟨["primaryField"], fun d => return .primaryField (← d.readOptionalText)⟩,
   ⟨["extraProps"], fun d => return .extraProps (← d.readBool)⟩]

def set (o : ApiOptions) : ApiPart → ApiOptions
  | .defaultQueries on => { o with defaultQueries := on }
  | .defaultMutations on => { o with defaultMutations := on }
  | .primaryField name => { o with primaryField := name }
  | .extraProps on => { o with extraProps := on }

def read (positions : Bool) : DocumentReader ApiOptions := fun d => do
  let parts ← d.readRecord positions slots
  return parts.foldl set {}

end ApiOptions

inductive EntityPart where
  | name (s : String)
  | table (s : Option String)
  | fields (fs : Dict Field)
  | relations (rs : Dict Relation)
  | api (o : ApiOptions)

namespace Entity

def slots (positions : Bool) : List (Document.Slot EntityPart) :=
  [⟨["name"], fun d => return .name (← d.readText)⟩,
   ⟨["table"], fun d => return .table (← d.readOptionalText)⟩,
   ⟨["fields"], fun d => return .fields (← d.readDict Field.read)⟩,
   ⟨["relations"], fun d => return .relations (← d.readDict (Relation.read positions))⟩,
   ⟨["api", "apiOptions", "graphqlOptions"],
    fun d => return .api (← ApiOptions.read positions d)⟩]

def set (e : Entity) : EntityPart → Entity
  | .name s => { e with name := s }
  | .table s => { e with table := s }
  | .fields fs => { e with fields := fs }
  | .relations rs => { e with relations := rs }
  | .api o => { e with api := o }

def read (positions : Bool) : DocumentReader Entity := fun d => do
  let parts ← d.readRecord positions (slots positions)
  let named := parts.any fun
    | .name _ => true
    | _ => false
  if named then return parts.foldl set ⟨"", none, [], [], {}⟩
  throw .malformed

end Entity

namespace OperatorSetting

def ofDocument? (d : Document) : Option OperatorSetting :=
  match d.settled with
  | .bool b => some (.enabled b)
  | .text s => some (.renamed s)
  | _ => none

end OperatorSetting

namespace QueryOptions

def settings? (done : Dict OperatorSetting) :
    List (Document × Document) → Option (Dict OperatorSetting)
  | [] => some done
  | (k, v) :: rest => do
      let key ← Document.choiceText? k
      let setting ← OperatorSetting.ofDocument? v
      settings? (Dict.insert done key setting) rest

/-- A switch, or a table of settings. -/
def read : DocumentReader QueryOptions := fun d =>
  if !d.isWhole then .error .malformed
  else match d.settled with
    | .bool b => .ok (.toggle b)
    | .table entries =>
        match settings? [] entries with
        | some settings => .ok (.operators settings)
        | none => .error .malformed
    | _ => .error .malformed

end QueryOptions

namespace MutationOptions

def switch? : Option Document → Option Bool
  | none => some true
  | some d =>
      match d.settled with
      | .bool b => some b
      | _ => none

def ofEntries? (entries : List (Document × Document)) : Option MutationOptions := do
  let fields ← Document.choiceFields? ["create", "update", "delete"] entries
  let create ← switch? (fields.lookup 0)
  let update ← switch? (fields.lookup 1)
  let delete ← switch? (fields.lookup 2)
  return .operations create update delete

/-- A switch, or a table with a switch per mutation. -/
def read : DocumentReader MutationOptions := fun d =>
  if !d.isWhole then .error .malformed
  else match d.settled with
    | .bool b => .ok (.toggle b)
    | .table entries =>
        match ofEntries? entries with
        | some o => .ok o
        | none => .error .malformed
    | _ => .error .malformed

end MutationOptions

inductive OptionsPart where
  | queryOptions (o : QueryOptions)
  | mutationOptions (o : MutationOptions)
  | extendTypes (s : String)
  | extendQueries (s : String)
  | extendMutations (s : String)
  | extendProps (fs : Dict Field)

namespace Options

def slots : List (Document.Slot OptionsPart) :=
  [⟨["queryOptions"], fun d => return .queryOptions (← QueryOptions.read d)⟩,
   ⟨["mutationOptions"], fun d => return .mutationOptions (← MutationOptions.read d)⟩,
   ⟨["extendTypes"], fun d => return .extendTypes (← d.readText)⟩,
   ⟨["extendQueries"], fun d => return .extendQueries (← d.readText)⟩,
   ⟨["extendMutations"], fun d => return .extendMutations (← d.readText)⟩,
   ⟨["extendProps"], fun d => return .extendProps (← d.readDict Field.read)⟩]

def set (o : Options) : OptionsPart → Options
  | .queryOptions q => { o with queryOptions := q }
  | .mutationOptions m => { o with mutationOptions := m }
  | .extendTypes s => { o with extendTypes := s }
  | .extendQueries s => { o with extendQueries := s }
  | .extendMutations s => { o with extendMutations := s }
  | .extendProps fs => { o with extendProps := fs }

def read (positions : Bool) : DocumentReader Options := fun d => do
  let parts ← d.readRecord positions slots
  return parts.foldl set {}

end Options

inductive FilePart where
  | entities (es : List Entity)
  | options (o : Options)

namespace DescriptorFile

def slots (positions : Bool) : List (Document.Slot FilePart) :=
  [⟨["entities"], fun d => return .entities (← d.readList (Entity.read positions))⟩,
   ⟨["options"], fun d => return .options (← Options.read positions d)⟩]

def set (f : DescriptorFile) : FilePart → DescriptorFile
  | .entities es => { f with entities := es }
  | .options o => { f with options := o }

def read (positions : Bool) : DocumentReader DescriptorFile := fun d => do
  let parts ← d.readRecord positions (slots positions)
  return parts.foldl set {}

/-- In JSON a record may be written as the list of its fields. -/
def ofJsonText (s : String) : Except DescriptorError DescriptorFile := do
  let (d, complete) := Json.readDocument s
  let file ← read true d
  if complete then return file
  throw .malformed

def ofYamlText (s : String) : Except DescriptorError DescriptorFile := do
  let (d, complete) := Yaml.readDocument s
  let file ← read false d
  if complete then return file
  throw .malformed

end DescriptorFile

end EntityGraph
