import EntityGraph.Store.Level
import EntityGraph.Entity.Registry

/-!
Answering a plan level by level. Each level is one query for all parents at once, restricted to
the values of the parents' join column, and its rows are handed out to the parents they join.
Columns that only the joining needs are taken out again at the end. Ordering applies to a level
as a whole; limit and offset apply to the root, and further down to each parent.
-/

namespace EntityGraph

/-- Something that answers flat queries. -/
abbrev RowSource (m : Type → Type) := LevelQuery → ExceptT RequestError m (List Row)

/-- A relation of a plan with what is needed to expand it. -/
structure Expansion where
  output : String
  relation : Relation
  target : Entity
  /-- The column of the parent that joins. -/
  ownerColumn : String
  /-- The relation to the middle entity, if there is one. -/
  via : Option Relation

/-- The rows of a level and the columns that are there for joining only. -/
structure LevelRows where
  rows : List Row
  strip : List String

def addName (names : List String) (name : String) : List String :=
  if names.contains name then names else names ++ [name]

def stripColumns (strip : List String) (row : Row) : Row := strip.foldl Dict.erase row

/-- The first value of each join key; values without one are left out. -/
def distinctKeysFrom (seen : List String) : List Json → List Json
  | [] => []
  | v :: rest =>
      match v.joinKey with
      | none => distinctKeysFrom seen rest
      | some k =>
          if seen.contains k then distinctKeysFrom seen rest
          else v :: distinctKeysFrom (k :: seen) rest

def distinctKeys (values : List Json) : List Json := distinctKeysFrom [] values

namespace FetchPlan

/-- The selected columns that the entity declares. -/
def columnsOf (p : FetchPlan) (e : Entity) : List String :=
  match p.selected? with
  | some fields => fields.filter e.hasScalar
  | none => e.scalarNames

end FetchPlan

/-- How a relation of a plan is expanded; unknown relations and targets are passed over. -/
def Registry.expansion? (r : Registry) (e : Entity) (name : String) (child : FetchPlan) :
    Option Expansion := do
  let relation ← e.relation? name
  let target ← r.get? relation.target
  match relation.cardinality with
  | .manyThrough via =>
      let via ← e.relation? via
      return ⟨child.outputName name, relation, target, via.join.near, some via⟩
  | _ => return ⟨child.outputName name, relation, target, relation.join.near, none⟩

def Registry.expansions (r : Registry) (e : Entity) (relations : List (String × FetchPlan)) :
    List Expansion :=
  relations.filterMap fun (name, child) => r.expansion? e name child

/-- Per-parent paging, then a list or a single row. -/
def Expansion.shape (x : Expansion) (plan : FetchPlan) (rows : List Row) : Json :=
  let rows := page plan.offset? plan.limit? rows
  if x.relation.cardinality.isList then .array (rows.map .object)
  else match rows with
    | row :: _ => .object row
    | [] => .null

/-- The children that join the parent directly. -/
def Expansion.directMatches (x : Expansion) (children : LevelRows) (parent : Row) : List Row :=
  match (Json.field parent x.ownerColumn).joinKey with
  | none => []
  | some key =>
      (children.rows.filter fun child =>
        (Json.field child x.relation.join.far).joinKey = some key).map
        (stripColumns children.strip)

/-- The pairs of owner key and target key that the middle rows make, with the target's value. -/
def linksOf (via relation : Relation) (middle : List Row) : List (String × String × Json) :=
  middle.filterMap fun row => do
    let target := Json.field row relation.join.near
    let owner ← (Json.field row via.join.far).joinKey
    let key ← target.joinKey
    return (owner, key, target)

/-- The first child of each wanted key, in the order of the children. -/
def firstOfKeys (column : String) (wanted : List String) (seen : List String) :
    List Row → List Row
  | [] => []
  | child :: rest =>
      match (Json.field child column).joinKey with
      | none => firstOfKeys column wanted seen rest
      | some key =>
          if wanted.contains key && !seen.contains key then
            child :: firstOfKeys column wanted (key :: seen) rest
          else firstOfKeys column wanted seen rest

/-- The children that join the parent through the links. -/
def Expansion.throughMatches (x : Expansion) (links : List (String × String × Json))
    (children : LevelRows) (parent : Row) : List Row :=
  match (Json.field parent x.ownerColumn).joinKey with
  | none => []
  | some owner =>
      let wanted := (links.filter (·.1 = owner)).map (·.2.1)
      (firstOfKeys x.relation.join.far wanted [] children.rows).map
        (stripColumns children.strip)

def Expansion.attach (x : Expansion) (plan : FetchPlan) (joined : Row → List Row)
    (parents : List Row) : List Row :=
  parents.map fun parent => Dict.insert parent x.output (x.shape plan (joined parent))

section Fetch

variable {m : Type → Type} [Monad m]

/-- The links between parents and targets; without parent keys there is nothing to ask. -/
def fetchLinks (source : RowSource m) (x : Expansion) (via : Relation) (middle : Entity)
    (parents : List Row) : ExceptT RequestError m (List (String × String × Json)) := do
  let keys := distinctKeys (parents.map fun row => Json.field row x.ownerColumn)
  if keys.isEmpty then return []
  let query : LevelQuery :=
    { entity := middle
      columns := addName [via.join.far] x.relation.join.near
      key := some ⟨via.join.far, keys⟩ }
  return linksOf via x.relation (← source query)

mutual

def fetchLevel (source : RowSource m) (r : Registry) (e : Entity) (key : Option KeyFilter)
    (root : Bool) : FetchPlan → ExceptT RequestError m LevelRows
  | ⟨shownAs, relations, modifiers⟩ => do
      let plan : FetchPlan := ⟨shownAs, relations, modifiers⟩
      let selected := plan.columnsOf e
      let owners := (r.expansions e relations).map (·.ownerColumn)
      let columns := (owners ++ (key.map (·.column)).toList).foldl addName selected
      if key.any (·.keys.isEmpty) then return ⟨[], []⟩
      let query : LevelQuery :=
        { entity := e
          columns := columns
          predicates := plan.predicates
          key := key
          order := plan.ordering
          limit := if root then plan.limit? else none
          offset := if root then plan.offset? else none }
      let rows ← source query
      let rows ← attachAll source r e rows relations
      return ⟨rows, columns.filter fun c => !selected.contains c⟩

def attachAll (source : RowSource m) (r : Registry) (e : Entity) (rows : List Row) :
    List (String × FetchPlan) → ExceptT RequestError m (List Row)
  | [] => return rows
  | (name, child) :: rest => do
      match r.expansion? e name child with
      | none => attachAll source r e rows rest
      | some x =>
          let column := x.relation.join.far
          match x.via with
          | none =>
              let keys := distinctKeys (rows.map fun row => Json.field row x.ownerColumn)
              let children ← fetchLevel source r x.target (some ⟨column, keys⟩) false child
              let rows := x.attach child (x.directMatches children) rows
              attachAll source r e rows rest
          | some via =>
              match r.get? via.target with
              | none => attachAll source r e rows rest
              | some middle =>
                  let links ← fetchLinks source x via middle rows
                  let keys := distinctKeys (links.map (·.2.2))
                  let children ← fetchLevel source r x.target (some ⟨column, keys⟩) false child
                  let rows := x.attach child (x.throughMatches links children) rows
                  attachAll source r e rows rest

end

/-- The key filter of a scope; a keyed scope needs a primary field. -/
def KeyScope.filter? (e : Entity) : KeyScope → Except RequestError (Option KeyFilter)
  | .all => .ok none
  | .one key => keyed e [key]
  | .many keys => keyed e keys
where
  keyed (e : Entity) (keys : List Json) : Except RequestError (Option KeyFilter) :=
    match e.primaryField with
    | some primary => .ok (some ⟨primary, keys⟩)
    | none => .error (.storage s!"{e.name} has no primary field to look up by")

def fetchGraph (source : RowSource m) (r : Registry) (entity : String) (scope : KeyScope)
    (plan : FetchPlan) : ExceptT RequestError m (List Json) := do
  match r.get? entity with
  | none => throw (.unknownEntity entity)
  | some e =>
      let key ← ExceptT.mk (pure (scope.filter? e))
      let level ← fetchLevel source r e key true plan
      return level.rows.map fun row => .object (stripColumns level.strip row)

end Fetch

end EntityGraph
