import EntityGraph.Sql.Value
import EntityGraph.Store.Level

/-!
Statements as data, and their text. Values never stand in the text: each is bound to a
placeholder, and the placeholders count up from the left. Names stand in double quotes.
-/

namespace EntityGraph

namespace Sql

/-- A name in double quotes; a quote inside is written twice. -/
def quoteName (s : String) : String :=
  "\"" ++ String.ofList (s.toList.flatMap fun c => if c = '"' then ['"', '"'] else [c]) ++ "\""

structure ColumnDef where
  name : String
  type : ColumnType
  isPrimary : Bool
deriving DecidableEq, Repr

def columnType (t : ScalarType) : ColumnType :=
  if t.name = "integer" ∨ t.name = "boolean" then .integer
  else if t.name = "number" ∨ t.name = "float" then .real
  else .text

def columnDefs (e : Entity) : List ColumnDef :=
  e.scalarFields.map fun (name, t) => ⟨name, columnType t, e.primaryField = some name⟩

inductive Comparison where
  | eq
  | notEq
  | gt
  | gte
  | lt
  | lte
deriving DecidableEq, Repr

def Comparison.sign : Comparison → String
  | .eq => "="
  | .notEq => "<>"
  | .gt => ">"
  | .gte => ">="
  | .lt => "<"
  | .lte => "<="

inductive Condition where
  | never
  | isIn (column : String) (values : List Json)
  | notIn (column : String) (values : List Json)
  | compare (column : String) (how : Comparison) (value : Json)
  | contains (column : String) (value : Json)
  /-- Without regard to the case of ASCII letters. -/
  | containsNoCase (column : String) (value : Json)
  | isNull (column : String)
  | isNotNull (column : String)
deriving Repr

/-- The condition of a predicate; none if every row passes. -/
def Condition.ofPredicate? (p : Predicate) : Option Condition :=
  match p.op with
  | .isIn => some (if p.value.asList.isEmpty then .never else .isIn p.field p.value.asList)
  | .notIn => if p.value.asList.isEmpty then none else some (.notIn p.field p.value.asList)
  | .eq => some (.compare p.field .eq p.value)
  | .notEq => some (.compare p.field .notEq p.value)
  | .gt => some (.compare p.field .gt p.value)
  | .gte => some (.compare p.field .gte p.value)
  | .lt => some (.compare p.field .lt p.value)
  | .lte => some (.compare p.field .lte p.value)
  | .like => some (.contains p.field p.value)
  | .likeNoCase => some (.containsNoCase p.field p.value)
  | .isNull => some (if p.value.bool? = some false then .isNotNull p.field else .isNull p.field)

structure Select where
  table : String
  columns : List String
  conditions : List Condition
  order : List SortKey := []
  limit : Option Nat := none
  offset : Option Nat := none

inductive Statement where
  | createTable (table : String) (columns : List ColumnDef)
  | select (s : Select)
  | insert (table : String) (values : List (String × Json)) (returning : List String)
  | update (table : String) (values : List (String × Json)) (keyColumn : String) (key : Json)
      (returning : List String)
  | delete (table : String) (keyColumn : String) (key : Json)

/-- A piece of a statement's text. -/
inductive Piece where
  | words (s : String)
  | name (s : String)
  /-- A placeholder and the value bound to it. -/
  | value (v : Json)

namespace Piece

/-- The pieces of each item with `separator` between each two of them. -/
def separated (separator : String) : List (List Piece) → List Piece
  | [] => []
  | [ps] => ps
  | ps :: rest => ps ++ .words separator :: separated separator rest

def names (ns : List String) : List Piece := separated ", " (ns.map fun n => [name n])

def values (vs : List Json) : List Piece := separated ", " (vs.map fun v => [value v])

/-- The text from the placeholder number `next` on. -/
def textFrom (next : Nat) : List Piece → String
  | [] => ""
  | .words s :: rest => s ++ textFrom next rest
  | .name s :: rest => quoteName s ++ textFrom next rest
  | .value _ :: rest => "?" ++ toString next ++ textFrom (next + 1) rest

def bound : List Piece → List Json
  | [] => []
  | .value v :: rest => v :: bound rest
  | _ :: rest => bound rest

end Piece

/-- A column as the statement that makes its table declares it. -/
def ColumnDef.pieces (c : ColumnDef) : List Piece :=
  [.name c.name, .words (" " ++ c.type.name ++ if c.isPrimary then " PRIMARY KEY" else "")]

def ColumnDef.text (c : ColumnDef) : String := Piece.textFrom 1 c.pieces

namespace Condition

def pieces : Condition → List Piece
  | never => [.words "0 = 1"]
  | isIn c vs => [.name c, .words " IN ("] ++ Piece.values vs ++ [.words ")"]
  | notIn c vs => [.name c, .words " NOT IN ("] ++ Piece.values vs ++ [.words ")"]
  | compare c how v => [.name c, .words (" " ++ how.sign ++ " "), .value v]
  | contains c v => [.words "instr(", .name c, .words ", ", .value v, .words ") > 0"]
  | containsNoCase c v =>
      [.words "instr(lower(", .name c, .words "), lower(", .value v, .words ")) > 0"]
  | isNull c => [.name c, .words " IS NULL"]
  | isNotNull c => [.name c, .words " IS NOT NULL"]

end Condition

namespace Select

def orderPieces (order : List SortKey) : List Piece :=
  Piece.separated ", "
    (order.map fun k => [.name k.field, .words (if k.descending then " DESC" else " ASC")])

/-- An offset of zero is left out; without a limit an offset needs one that means none. -/
def pagePieces (limit offset : Option Nat) : List Piece :=
  match limit, offset.getD 0 with
  | some n, 0 => [.words s!" LIMIT {n}"]
  | some n, m => [.words s!" LIMIT {n} OFFSET {m}"]
  | none, 0 => []
  | none, m => [.words s!" LIMIT -1 OFFSET {m}"]

def pieces (s : Select) : List Piece :=
  (if s.columns.isEmpty then [.words "SELECT 1"]
    else .words "SELECT " :: Piece.names s.columns) ++
  [.words " FROM ", .name s.table] ++
  (if s.conditions.isEmpty then []
    else .words " WHERE " :: Piece.separated " AND " (s.conditions.map Condition.pieces)) ++
  (if s.order.isEmpty then [] else .words " ORDER BY " :: orderPieces s.order) ++
  pagePieces s.limit s.offset

end Select

namespace Statement

def columnPieces (columns : List ColumnDef) : List Piece :=
  Piece.separated ",\n  " (columns.map ColumnDef.pieces)

def assignmentPieces (values : List (String × Json)) : List Piece :=
  Piece.separated ", " (values.map fun v => [.name v.1, .words " = ", .value v.2])

def keyPieces (column : String) (key : Json) : List Piece :=
  [.words " WHERE ", .name column, .words " = ", .value key]

def pieces : Statement → List Piece
  | createTable table columns =>
      [.words "CREATE TABLE IF NOT EXISTS ", .name table, .words " (\n  "] ++
        columnPieces columns ++ [.words "\n)"]
  | select s => s.pieces
  | insert table [] returning =>
      [.words "INSERT INTO ", .name table, .words " DEFAULT VALUES RETURNING "] ++
        Piece.names returning
  | insert table values returning =>
      [.words "INSERT INTO ", .name table, .words " ("] ++ Piece.names (values.map (·.1)) ++
        [.words ") VALUES ("] ++ Piece.values (values.map (·.2)) ++ [.words ") RETURNING "] ++
        Piece.names returning
  | update table [] keyColumn key returning =>
      .words "SELECT " :: Piece.names returning ++ [.words " FROM ", .name table] ++
        keyPieces keyColumn key
  | update table values keyColumn key returning =>
      [.words "UPDATE ", .name table, .words " SET "] ++ assignmentPieces values ++
        keyPieces keyColumn key ++ .words " RETURNING " :: Piece.names returning
  | delete table keyColumn key =>
      [.words "DELETE FROM ", .name table] ++ keyPieces keyColumn key

def text (s : Statement) : String := Piece.textFrom 1 s.pieces

def bound (s : Statement) : List Bound := (Piece.bound s.pieces).map Bound.ofJson

end Statement

def createTable (e : Entity) : Statement := .createTable e.tableName (columnDefs e)

end Sql

end EntityGraph
