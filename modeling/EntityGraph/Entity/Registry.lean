import EntityGraph.Entity.Basic
import EntityGraph.SchemaError

/-!
A registry is a set of entities that fit together: names are unique, relation fields have their
relations, relations have their targets, and a through relation goes through a direct one.
-/

namespace EntityGraph

structure Registry where
  entities : Dict Entity
deriving Repr

namespace Registry

def get? (r : Registry) (name : String) : Option Entity := Dict.get? r.entities name

/-- In the order of declaration. -/
def toList (r : Registry) : List Entity := r.entities.map (·.2)

def size (r : Registry) : Nat := r.entities.length

/-- The entities by name, none of which may come twice. -/
def collect (done : Dict Entity) : List Entity → Except SchemaError (Dict Entity)
  | [] => .ok done
  | e :: rest =>
      if Dict.contains done e.name then .error (.duplicateEntity e.name)
      else collect (Dict.insert done e.name e) rest

def checkFields (e : Entity) : List (String × Field) → Except SchemaError Unit
  | [] => .ok ()
  | (_, .scalar _) :: rest => checkFields e rest
  | (field, .relation name) :: rest =>
      let name := name.getD field
      if Dict.contains e.relations name then checkFields e rest
      else .error (.unresolvedRelation e.name field name)

/-- Whether a relation of the entity leads to its target without a middle. -/
def isDirect (e : Entity) (name : String) : Bool :=
  match e.relation? name with
  | some r => !r.cardinality.isThrough
  | none => false

def checkRelations (known : Dict Entity) (e : Entity) :
    List (String × Relation) → Except SchemaError Unit
  | [] => .ok ()
  | (name, r) :: rest =>
      if !Dict.contains known r.target then .error (.unknownTarget e.name name r.target)
      else match r.cardinality with
        | .manyThrough via =>
            if isDirect e via then checkRelations known e rest
            else .error (.invalidThrough e.name name via)
        | _ => checkRelations known e rest

def checkEntity (known : Dict Entity) (e : Entity) : Except SchemaError Unit := do
  if e.fields.isEmpty then throw (.missingFields e.name)
  checkFields e e.fields
  checkRelations known e e.relations
  if e.api.defaultMutations && e.primaryField = some "" then
    throw (.emptyPrimaryField e.name)

def checkAll (known : Dict Entity) : List Entity → Except SchemaError Unit
  | [] => .ok ()
  | e :: rest => do
      checkEntity known e
      checkAll known rest

/-- Duplicates are found first, then the faults of each entity in turn. -/
def ofList (entities : List Entity) : Except SchemaError Registry := do
  let known ← collect [] entities
  checkAll known (known.map (·.2))
  return ⟨known⟩

end Registry

end EntityGraph
