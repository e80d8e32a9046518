import EntityGraph.Plan.Basic
import EntityGraph.Json.Compare
import EntityGraph.RequestError

/-!
One flat query against the rows of a single entity, and what it means on a list of rows. Nested
reads are put together from such queries.
-/

namespace EntityGraph

/-- The rows a read is restricted to, by primary key. -/
inductive KeyScope where
  | all
  | one (key : Json)
  | many (keys : List Json)
deriving Repr

/-- A column whose value must be one of the keys. -/
structure KeyFilter where
  column : String
  keys : List Json
deriving Repr

structure LevelQuery where
  entity : Entity
  columns : List String
  predicates : List Predicate := []
  key : Option KeyFilter := none
  order : List SortKey := []
  limit : Option Nat := none
  offset : Option Nat := none

namespace KeyFilter

def holds (k : KeyFilter) (row : Row) : Bool := k.keys.any (Json.field row k.column).equal

end KeyFilter

def Predicate.holds (p : Predicate) (row : Row) : Bool :=
  p.op.holds (Json.field row p.field) p.value

/-- The order of two rows by the first column in which they differ. -/
def SortKey.compareRows : List SortKey → Row → Row → Ordering
  | [], _, _ => .eq
  | k :: rest, a, b =>
      let here := (Json.field a k.field).sortOrder (Json.field b k.field)
      let here := if k.descending then here.swap else here
      if here = .eq then compareRows rest a b else here

/-- Puts a row behind the last one that it does not precede; the rows stand last first. -/
def SortKey.insertRow (order : List SortKey) (row : Row) : List Row → List Row
  | [] => [row]
  | last :: rest =>
      if compareRows order row last = .lt then last :: insertRow order row rest
      else row :: last :: rest

/-- Rows in the given order; rows that tie keep theirs. -/
def SortKey.sortRows (order : List SortKey) (rows : List Row) : List Row :=
  (rows.foldl (fun done row => insertRow order row done) []).reverse

/-- The rows that are left after the offset, up to the limit. -/
def page {α : Type} (offset limit : Option Nat) (rows : List α) : List α :=
  let rows := rows.drop (offset.getD 0)
  match limit with
  | some n => rows.take n
  | none => rows

/-- Exactly the named columns, null where the row has none. -/
def projectRow (columns : List String) (row : Row) : Row :=
  Dict.ofList (columns.map fun c => (c, Json.field row c))

namespace LevelQuery

def holds (q : LevelQuery) (row : Row) : Bool :=
  (match q.key with
    | some k => k.holds row
    | none => true) && q.predicates.all (·.holds row)

/-- The answer of the query on the stored rows. -/
def answer (q : LevelQuery) (rows : List Row) : List Row :=
  (page q.offset q.limit (SortKey.sortRows q.order (rows.filter q.holds))).map
    (projectRow q.columns)

end LevelQuery

end EntityGraph
