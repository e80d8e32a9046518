import EntityGraph.Sql.Engine
import EntityGraph.Store.Fetch

/-!
A store on a database. Every read and write is one statement, but long key lists are split over
several, and then ordering and paging are done on what these bring together.
-/

namespace EntityGraph

/-- The database and the statements issued to it, in order. -/
structure SqlSession where
  database : Sql.Database := []
  issued : List Sql.Statement := []

structure SqlStore where
  registry : Registry
  /-- The most keys in one statement. -/
  batchSize : Nat := 30000

abbrev SqlAction (α : Type) := ExceptT RequestError (StateM SqlSession) α

namespace Sql

/-- A cell as the descriptor's type of its column says; a cell of another kind is refused. -/
def decodeCell (type : Option ScalarType) (c : Cell) : Except RequestError Json :=
  match c with
  | .null => .ok .null
  | c =>
      match type with
      | none =>
          match c with
          | .int n => .ok (.number (.int n))
          | .real d => .ok (.number (.double d))
          | .text s => .ok (.string s)
          | .null => .ok .null
      | some t =>
          if t.name = "integer" then
            match c with
            | .int n => .ok (.number (.int n))
            | _ => .error .database
          else if t.name = "number" ∨ t.name = "float" then
            match c with
            | .real d => .ok (.number (.double d))
            | _ => .error .database
          else if t.name = "boolean" then
            match c with
            | .int n => .ok (.bool (n ≠ 0))
            | _ => .error .database
          else
            match c with
            | .text s => .ok (.string s)
            | _ => .error .database

def decodeRow (e : Entity) (done : Row) : List (String × Cell) → Except RequestError Row
  | [] => .ok done
  | (name, c) :: rest => do
      let v ← decodeCell (e.scalarType? name) c
      decodeRow e (Dict.insert done name v) rest

end Sql

namespace SqlStore

open Sql

def issue (s : Statement) : SqlAction Outcome := fun session =>
  let session := { session with issued := session.issued ++ [s] }
  match s.run session.database with
  | .ok (outcome, db) => (.ok outcome, { session with database := db })
  | .error e => (.error e, session)

def ofExcept {α : Type} (r : Except RequestError α) : SqlAction α := ExceptT.mk (pure r)

def createTables : List Entity → SqlAction Unit
  | [] => return ()
  | e :: rest => do
      if e.hasInputs then
        let _ ← issue (createTable e)
      createTables rest

def conditionsOf (q : LevelQuery) : List Condition :=
  (q.predicates.filter fun p => q.entity.hasScalar p.field).filterMap Condition.ofPredicate?

def keyCondition : Option KeyFilter → List Condition
  | some k => [.isIn k.column k.keys]
  | none => []

/-- The keys on columns that the entity declares. -/
def orderOf (q : LevelQuery) : List SortKey := q.order.filter fun k => q.entity.hasScalar k.field

def selectOf (q : LevelQuery) (key : Option KeyFilter) (columns : List String) (paged : Bool) :
    Select :=
  { table := q.entity.tableName
    columns := columns
    conditions := keyCondition key ++ conditionsOf q
    order := orderOf q
    limit := if paged then q.limit else none
    offset := if paged then q.offset else none }

def decodeRows (e : Entity) (columns : List String) (rows : List (List Cell)) :
    Except RequestError (List Row) :=
  rows.mapM fun cells => decodeRow e [] (columns.zip cells)

def selectRows (q : LevelQuery) (key : Option KeyFilter) (columns : List String) (paged : Bool) :
    SqlAction (List Row) := do
  let outcome ← issue (.select (selectOf q key columns paged))
  ofExcept (decodeRows q.entity columns outcome.rows)

/-- The list cut into parts of `size`, the last of which may be shorter. -/
def batches {α : Type} (size : Nat) : Nat → List α → List (List α)
  | 0, _ => []
  | _, [] => []
  | fuel + 1, xs => xs.take size :: batches size fuel (xs.drop size)

def selectBatches (q : LevelQuery) (column : String) (columns : List String) :
    List (List Json) → SqlAction (List Row)
  | [] => return []
  | keys :: rest => do
      let rows ← selectRows q (some ⟨column, keys⟩) columns false
      let more ← selectBatches q column columns rest
      return rows ++ more

/-- The columns of the query and those that it is ordered by. -/
def orderedColumns (q : LevelQuery) : List String :=
  ((orderOf q).map (·.field)).foldl addName q.columns

/-- The named columns, each taken out of the row when it is first named. -/
def takeColumns (row done : Row) : List String → Row
  | [] => done
  | c :: rest => takeColumns (Dict.erase row c) (Dict.insert done c (Json.field row c)) rest

def fetchBatched (size : Nat) (q : LevelQuery) (k : KeyFilter) : SqlAction (List Row) := do
  let rows ← selectBatches q k.column (orderedColumns q) (batches size k.keys.length k.keys)
  return (page q.offset q.limit (SortKey.sortRows (orderOf q) rows)).map fun row =>
    takeColumns row [] q.columns

def source (st : SqlStore) : RowSource (StateM SqlSession) := fun q =>
  match q.key with
  | none => selectRows q none q.columns true
  | some k =>
      if k.keys.isEmpty then return []
      else if max st.batchSize 1 < k.keys.length then fetchBatched (max st.batchSize 1) q k
      else selectRows q (some k) q.columns true

def select (st : SqlStore) (entity : String) (scope : KeyScope) (plan : FetchPlan) :
    SqlAction (List Json) :=
  fetchGraph st.source st.registry entity scope plan

def entityOf (st : SqlStore) (entity : String) : SqlAction Entity :=
  match st.registry.get? entity with
  | some e => return e
  | none => throw (.unknownEntity entity)

def primaryOf (e : Entity) : SqlAction String :=
  match e.primaryField with
  | some primary => return primary
  | none => throw (.storage s!"{e.name} has no primary field")

def firstRow (e : Entity) (s : Statement) : SqlAction (Option Json) := do
  let outcome ← issue s
  match outcome.rows with
  | [] => return none
  | cells :: _ =>
      let row ← ofExcept (decodeRow e [] (e.scalarNames.zip cells))
      return some (.object row)

def declaredValues (e : Entity) (row : Row) : Row := row.filter fun v => e.hasScalar v.1

def insert (st : SqlStore) (entity : String) (row : Row) : SqlAction Json := do
  let e ← st.entityOf entity
  match ← firstRow e (.insert e.tableName (declaredValues e row) e.scalarNames) with
  | some row => return row
  | none => throw (.storage s!"insert into {entity} returned no row")

def patch (st : SqlStore) (entity : String) (key : Json) (row : Row) :
    SqlAction (Option Json) := do
  let e ← st.entityOf entity
  let primary ← primaryOf e
  firstRow e (.update e.tableName (declaredValues e row) primary key e.scalarNames)

def delete (st : SqlStore) (entity : String) (key : Json) : SqlAction Nat := do
  let e ← st.entityOf entity
  let primary ← primaryOf e
  let outcome ← issue (.delete e.tableName primary key)
  return outcome.changed

end SqlStore

end EntityGraph
