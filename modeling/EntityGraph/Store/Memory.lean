import EntityGraph.Store.Fetch

/-!
A store that holds its rows itself. Every entity has a table of rows in the order of insertion
and a counter from which keys are given out that the caller does not supply.
-/

namespace EntityGraph

structure Table where
  rows : List Row := []
  /-- The largest integer key accepted or given out so far. -/
  lastKey : Int := 0

abbrev MemoryStore := Dict Table

namespace MemoryStore

def table (s : MemoryStore) (entity : String) : Table := (Dict.get? s entity).getD {}

def count (s : MemoryStore) (entity : String) : Nat := (s.table entity).rows.length

/-- Only what the entity declares. -/
def declaredValues (e : Entity) (values : Row) : Row := values.filter fun v => e.hasScalar v.1

/-- Every scalar column, in the order of declaration. -/
def fullRow (e : Entity) (row : Row) : Json :=
  .object (e.scalarNames.map fun name => (name, Json.field row name))

def hasKey (primary : String) (key : Json) (row : Row) : Bool :=
  match Dict.get? row primary with
  | some v => v.equal key
  | none => false

/-- Counting up past the largest signed 64-bit integer goes on at the smallest. -/
def successor (n : Int) : Int := if n + 1 < Nat.pow 2 63 then n + 1 else -(Nat.pow 2 63)

def integerKey? : Json → Option Int
  | .number n => n.toInt64?
  | _ => none

/-- The table with the row at its end. A key that is there already is refused; a key that is
missing or null is counted up. -/
def addRow (e : Entity) (t : Table) (row : Row) : Except RequestError (Row × Table) :=
  match e.primaryField with
  | none => .ok (row, { t with rows := t.rows ++ [row] })
  | some primary =>
      let key := Json.field row primary
      if key.isNull then
        let next := successor t.lastKey
        let row := Dict.insert row primary (.number (.int next))
        .ok (row, ⟨t.rows ++ [row], next⟩)
      else if t.rows.any (hasKey primary key) then
        .error (.storage s!"duplicate primary key {key.text} for {e.name}")
      else
        let last :=
          match integerKey? key with
          | some k => max t.lastKey k
          | none => t.lastKey
        .ok (row, ⟨t.rows ++ [row], last⟩)

/-- Writes the values into the first row that satisfies `p`, which is returned as it is then. -/
def patchFirst (p : Row → Bool) (values : Row) : List Row → Option (Row × List Row)
  | [] => none
  | row :: rest =>
      if p row then
        let row := Dict.insertAll row values
        some (row, row :: rest)
      else (patchFirst p values rest).map fun (found, rest) => (found, row :: rest)

def source (s : MemoryStore) : RowSource Id := fun q =>
  ExceptT.mk (pure (.ok (q.answer (s.table q.entity.name).rows)))

def select (r : Registry) (s : MemoryStore) (entity : String) (scope : KeyScope)
    (plan : FetchPlan) : Except RequestError (List Json) :=
  (fetchGraph s.source r entity scope plan).run

/-- The store with one more row, and the row with every scalar column. -/
def insert (r : Registry) (s : MemoryStore) (entity : String) (row : Row) :
    Except RequestError (Json × MemoryStore) := do
  match r.get? entity with
  | none => throw (.unknownEntity entity)
  | some e =>
      let (row, t) ← addRow e (s.table entity) (declaredValues e row)
      return (fullRow e row, Dict.insert s entity t)

def primaryOf (r : Registry) (entity : String) : Except RequestError (Entity × String) :=
  match r.get? entity with
  | none => .error (.unknownEntity entity)
  | some e =>
      match e.primaryField with
      | some primary => .ok (e, primary)
      | none => .error (.storage s!"{e.name} has no primary field")

/-- Changes the row under the key; none if there is no such row. -/
def patch (r : Registry) (s : MemoryStore) (entity : String) (key : Json) (values : Row) :
    Except RequestError (Option Json × MemoryStore) := do
  let (e, primary) ← primaryOf r entity
  let t := s.table entity
  match patchFirst (hasKey primary key) (declaredValues e values) t.rows with
  | none => return (none, s)
  | some (row, rows) =>
      return (some (fullRow e row), Dict.insert s entity { t with rows := rows })

/-- Removes the rows under the key and counts them. -/
def delete (r : Registry) (s : MemoryStore) (entity : String) (key : Json) :
    Except RequestError (Nat × MemoryStore) := do
  let (_, primary) ← primaryOf r entity
  let t := s.table entity
  let rows := t.rows.filter fun row => !hasKey primary key row
  return (t.rows.length - rows.length, Dict.insert s entity { t with rows := rows })

end MemoryStore

end EntityGraph
