import EntityGraph.Dict
import EntityGraph.Text.Words

/-!
Entities: ordered fields, the relations that fields resolve through, and the switches that say
what of an entity is offered to clients.
-/

namespace EntityGraph

/-- The meaning of a scalar field, by the name that descriptors give it. -/
structure ScalarType where
  name : String
deriving DecidableEq, Repr

/-- The type's name in schemas: `string` and `integer` have names of their own, any other name is
capitalized. -/
def ScalarType.schemaName (t : ScalarType) : String :=
  if t.name = "string" then "String"
  else if t.name = "integer" then "Int"
  else Text.capitalizeFirst t.name

inductive Field where
  | scalar (type : ScalarType)
  /-- Resolves through the named relation, or the one named like the field. -/
  | relation (name : Option String)
deriving DecidableEq, Repr

inductive Cardinality where
  | one
  | many
  /-- Through another relation of the same entity, which leads to a middle entity. -/
  | manyThrough (via : String)
deriving DecidableEq, Repr

namespace Cardinality

def isList : Cardinality → Bool
  | .one => false
  | _ => true

def isThrough : Cardinality → Bool
  | .manyThrough _ => true
  | _ => false

end Cardinality

/-- Rows are paired where the near column equals the far one. The far column belongs to the
target; the near one to the owner, or to the middle entity of a through relation. -/
structure Join where
  near : String
  far : String
deriving DecidableEq, Repr

structure Relation where
  cardinality : Cardinality
  target : String
  join : Join
  exposed : Bool
  exposedAs : Option String
deriving DecidableEq, Repr

structure ApiOptions where
  defaultQueries : Bool := true
  defaultMutations : Bool := true
  /-- The field that keyed reads and writes go by; without one there are none. -/
  primaryField : Option String := some "id"
  extraProps : Bool := true
deriving DecidableEq, Repr

structure Entity where
  name : String
  table : Option String
  fields : Dict Field
  relations : Dict Relation
  api : ApiOptions
deriving DecidableEq, Repr

/-- A relation under the name that clients know it by. -/
structure ApiRelation where
  apiName : String
  name : String
  relation : Relation
deriving DecidableEq, Repr

inductive ApiField where
  | scalar (type : ScalarType)
  | relation (name : String) (relation : Relation)
deriving DecidableEq, Repr

namespace Entity

def tableName (e : Entity) : String := e.table.getD e.name

/-- The name of the query for one row. -/
def camelName (e : Entity) : String := Text.camelCase e.name

/-- The name of the query for many rows. -/
def pluralName (e : Entity) : String := e.camelName ++ "s"

def createInputName (e : Entity) : String := e.name ++ "CreateInput"

def updateInputName (e : Entity) : String := e.name ++ "UpdateInput"

def primaryField (e : Entity) : Option String := e.api.primaryField

def scalarFields (e : Entity) : List (String × ScalarType) :=
  e.fields.filterMap fun (name, field) =>
    match field with
    | .scalar t => some (name, t)
    | .relation _ => none

def scalarNames (e : Entity) : List String := e.scalarFields.map (·.1)

def scalarType? (e : Entity) (name : String) : Option ScalarType :=
  match Dict.get? e.fields name with
  | some (.scalar t) => some t
  | _ => none

def hasScalar (e : Entity) (name : String) : Bool := (e.scalarType? name).isSome

def hasInputs (e : Entity) : Bool := !e.scalarFields.isEmpty

def relation? (e : Entity) (name : String) : Option Relation := Dict.get? e.relations name

/-- The relation that a field resolves through, with its name. -/
def relationForField? (e : Entity) (field : String) : Option (String × Relation) :=
  match Dict.get? e.fields field with
  | some (.relation name) =>
      let name := name.getD field
      (e.relation? name).map fun r => (name, r)
  | _ => none

/-- The exposed relations in the order of their fields. -/
def apiRelations (e : Entity) : List ApiRelation :=
  (Dict.keys e.fields).filterMap fun field =>
    match e.relationForField? field with
    | some (name, r) => if r.exposed then some ⟨r.exposedAs.getD field, name, r⟩ else none
    | none => none

/-- Scalars come before relations of the same name, earlier relations before later ones. -/
def resolve? (e : Entity) (name : String) : Option ApiField :=
  match e.scalarType? name with
  | some t => some (.scalar t)
  | none => (e.apiRelations.find? (·.apiName = name)).map fun a => .relation a.name a.relation

/-- The fields with those of `extra` that are not among them. -/
def addFields (fields extra : Dict Field) : Dict Field :=
  extra.foldl
    (fun done e => if Dict.contains done e.1 then done else Dict.insert done e.1 e.2) fields

/-- The entity with the fields of `extra` that it does not declare, unless it opted out. -/
def mergedWith (e : Entity) (extra : Dict Field) : Entity :=
  if e.api.extraProps then { e with fields := addFields e.fields extra } else e

end Entity

end EntityGraph
