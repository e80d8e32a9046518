import EntityGraph.Sql.Statement

/-!
What statements do to a database. Tables keep their rows by row number; a primary key of integers
is the row number, and one of another type has an index, by which rows are visited where that
helps. Conditions have three values, and a row passes where all of them are true. A name that is
neither a column of the table nor one of the row number's stands for itself as a text.
-/

namespace EntityGraph

namespace Sql

structure StoredRow where
  number : Int
  cells : List Cell
deriving Repr

structure StoredTable where
  columns : List ColumnDef
  /-- In the order of their numbers. -/
  rows : List StoredRow := []
deriving Repr

/-- The tables by name, in lower case since the case of a name does not count. -/
abbrev Database := Dict StoredTable

/-- What a statement answers: rows of cells, and how many rows it changed. -/
structure Outcome where
  rows : List (List Cell) := []
  changed : Nat := 0

/-- A name as names are compared: ASCII letters in lower case. -/
def foldName (s : String) : String := String.ofList (s.toList.map Char.toLower)

def boundLimit : Nat := 32766

namespace StoredTable

def columnIndex? (t : StoredTable) (name : String) : Option Nat :=
  t.columns.findIdx? fun c => foldName c.name = foldName name

/-- The column that is the row number, if there is one. -/
def numberColumn? (t : StoredTable) : Option Nat :=
  t.columns.findIdx? fun c => c.isPrimary && c.type = .integer

/-- The names that the row number has in a table without columns of these names. -/
def numberNames : List String := ["rowid", "oid", "_rowid_"]

/-- The value of a name in a row, and the type of its column. -/
def valueOf (t : StoredTable) (row : StoredRow) (name : String) : Cell × Option ColumnType :=
  match t.columnIndex? name with
  | some i => (row.cells.getD i .null, t.columns[i]?.map (·.type))
  | none =>
      if numberNames.contains (foldName name) then (.int row.number, some .integer)
      else (.text name, none)

def cellOf (t : StoredTable) (row : StoredRow) (name : String) : Cell := (t.valueOf row name).1

end StoredTable

/-- A condition's value; none where it is unknown. -/
abbrev Truth := Option Bool

def Truth.not (t : Truth) : Truth := Option.map Bool.not t

/-- True if any is, else unknown if any is. -/
def Truth.any : List Truth → Truth
  | [] => some false
  | t :: rest =>
      match t, Truth.any rest with
      | some true, _ => some true
      | _, some true => some true
      | some false, r => r
      | none, _ => none

def comparedWith (column : Cell × Option ColumnType) (v : Json) : Option Ordering :=
  let c := (Bound.ofJson v).cell
  let c :=
    match column.2 with
    | some t => t.comparand c
    | none => c
  column.1.compare? c

def Comparison.accepts : Comparison → Ordering → Bool
  | .eq, o => o = .eq
  | .notEq, o => o ≠ .eq
  | .gt, o => o = .gt
  | .gte, o => o ≠ .lt
  | .lt, o => o = .lt
  | .lte, o => o ≠ .gt

def lowerAscii (s : String) : List Char := s.toList.map Char.toLower

namespace Condition

def truth (t : StoredTable) (row : StoredRow) : Condition → Truth
  | never => some false
  | isIn c vs => isAmong (t.valueOf row c) vs
  | notIn c vs => (isAmong (t.valueOf row c) vs).not
  | compare c how v => (comparedWith (t.valueOf row c) v).map how.accepts
  | contains c v => do
      let hay ← (t.cellOf row c).text?
      let needle ← (Bound.ofJson v).cell.text?
      return Text.contains hay needle
  | containsNoCase c v => do
      let hay ← (t.cellOf row c).text?
      let needle ← (Bound.ofJson v).cell.text?
      return Text.occursIn (lowerAscii needle) (lowerAscii hay)
  | isNull c => some (t.cellOf row c = .null)
  | isNotNull c => some (t.cellOf row c ≠ .null)
where
  isAmong (column : Cell × Option ColumnType) (vs : List Json) : Truth :=
    Truth.any (vs.map fun v => (comparedWith column v).map fun o => o = .eq)

def column? : Condition → Option String
  | never => none
  | isIn c _ | notIn c _ | compare c _ _ | contains c _ | containsNoCase c _ | isNull c
  | isNotNull c => some c

/-- Whether the rows that pass are found in an index without looking at all of them. -/
def narrows : Condition → Bool
  | isIn _ _ | isNull _ => true
  | compare _ how _ => how ≠ .notEq
  | _ => false

end Condition

/-- Whether a selection is made by an index on the named column. -/
def Select.usesIndex (s : Select) (name : String) : Bool :=
  let isIt (column : String) : Bool := foldName column = foldName name
  s.conditions.any (fun c => c.narrows && c.column?.any isIt) ||
    (s.order.head?.any fun k => isIt k.field) ||
    (s.columns.all isIt && s.conditions.all (fun c => c.column?.all isIt) &&
      s.order.all fun k => isIt k.field)

namespace StoredTable

def compareRows (t : StoredTable) : List SortKey → StoredRow → StoredRow → Ordering
  | [], _, _ => .eq
  | k :: rest, a, b =>
      let here := (t.cellOf a k.field).sortOrder (t.cellOf b k.field)
      let here := if k.descending then here.swap else here
      if here = .eq then compareRows t rest a b else here

/-- The name of the primary column that is not the row number. Its values have an index. -/
def indexed? (t : StoredTable) : Option String :=
  (t.columns.find? fun c => c.isPrimary && c.type ≠ .integer).map (·.name)

/-- The rows in the order in which a selection visits them: by the index where it narrows the
selection down, puts it in order or holds all that is asked for, else by number. -/
def visited (t : StoredTable) (s : Select) : List StoredRow :=
  match t.indexed? with
  | none => t.rows
  | some name =>
      if s.usesIndex name then
        let rows := t.rows.mergeSort fun a b =>
          (t.cellOf a name).sortOrder (t.cellOf b name) != .gt
        if s.order.head?.any fun k => foldName k.field = foldName name && k.descending then
          rows.reverse
        else rows
      else t.rows

/-- The rows that a selection yields, before its columns are taken. -/
def selectRows (t : StoredTable) (s : Select) : List StoredRow :=
  let found := (t.visited s).filter fun row => s.conditions.all fun c => c.truth t row = some true
  let sorted :=
    if s.order.isEmpty then found
    else found.mergeSort fun a b => t.compareRows s.order a b != .gt
  page s.offset s.limit sorted

/-- An integer for a row number; texts and reals that are integers count. -/
def rowNumber? (c : Cell) : Option Int :=
  match ColumnType.integer.keep c with
  | .int n => some n
  | _ => none

def nextNumber (t : StoredTable) : Int :=
  match t.rows.getLast? with
  | some row => row.number + 1
  | none => 1

/-- Whether a row other than number `self` has the row's value in a primary column. -/
def collides (t : StoredTable) (self : Option Int) (row : StoredRow) : Bool :=
  t.rows.any fun other =>
    some other.number ≠ self &&
      (other.number = row.number ||
        (List.range t.columns.length).any fun i =>
          (t.columns[i]?.any (·.isPrimary)) &&
            (row.cells.getD i .null).compare? (other.cells.getD i .null) = some .eq)

/-- The row at its place by number. -/
def putRow (row : StoredRow) : List StoredRow → List StoredRow
  | [] => [row]
  | other :: rest =>
      if row.number < other.number then row :: other :: rest else other :: putRow row rest

/-- The cells of a row with `values` written into them, each as its column keeps it. -/
def writeCells (t : StoredTable) (cells : List Cell) (values : List (Nat × Cell)) : List Cell :=
  cells.mapIdx fun i old =>
    match values.lookup i, t.columns[i]? with
    | some c, some column => column.type.keep c
    | _, _ => old

/-- A row whose number column, if there is one, holds its number. -/
def numbered (t : StoredTable) (n : Int) (cells : List Cell) : StoredRow :=
  match t.numberColumn? with
  | some i => ⟨n, cells.set i (.int n)⟩
  | none => ⟨n, cells⟩

def resolveValues (t : StoredTable) :
    List (String × Json) → Except RequestError (List (Nat × Cell))
  | [] => .ok []
  | (name, v) :: rest => do
      match t.columnIndex? name with
      | none => throw .database
      | some i =>
          let values ← resolveValues t rest
          return (i, (Bound.ofJson v).cell) :: values

def insertRow (t : StoredTable) (values : List (String × Json)) :
    Except RequestError (StoredRow × StoredTable) := do
  let values ← t.resolveValues values
  let cells := t.writeCells (t.columns.map fun _ => .null) values
  let given := (t.numberColumn?.map fun i => cells.getD i .null).getD .null
  let n ←
    match given with
    | .null => pure t.nextNumber
    | c =>
        match rowNumber? c with
        | some n => pure n
        | none => throw .database
  let row := t.numbered n cells
  if t.collides none row then throw .database
  return (row, { t with rows := putRow row t.rows })

/-- The row with the values written into it, at the place of its number. -/
def updateRow (t : StoredTable) (values : List (Nat × Cell)) (row : StoredRow) :
    Except RequestError (StoredRow × StoredTable) := do
  let cells := t.writeCells row.cells values
  let n ←
    match t.numberColumn?.bind fun i => values.lookup i with
    | none => pure row.number
    | some c =>
        match rowNumber? c with
        | some n => pure n
        | none => throw .database
  let changed := t.numbered n cells
  if t.collides (some row.number) changed then throw .database
  let rest := t.rows.filter fun other => other.number ≠ row.number
  return (changed, { t with rows := putRow changed rest })

def updateRows (t : StoredTable) (values : List (Nat × Cell)) :
    List StoredRow → Except RequestError (List StoredRow × StoredTable)
  | [] => .ok ([], t)
  | row :: rest => do
      let (changed, t) ← t.updateRow values row
      let (more, t) ← updateRows t values rest
      return (changed :: more, t)

def cellsOf (t : StoredTable) (columns : List String) (row : StoredRow) : List Cell :=
  columns.map (t.cellOf row)

end StoredTable

namespace Database

def table (db : Database) (name : String) : Except RequestError StoredTable :=
  match Dict.get? db (foldName name) with
  | some t => .ok t
  | none => .error .database

def put (db : Database) (name : String) (t : StoredTable) : Database :=
  Dict.insert db (foldName name) t

end Database

def hasRepeatedName : List ColumnDef → Bool
  | [] => false
  | c :: rest => rest.any (fun d => foldName d.name = foldName c.name) || hasRepeatedName rest

def pageFits (n : Option Nat) : Bool := n.all (· < Nat.pow 2 63)

namespace Statement

/-- The answer of a statement and the database after it; a refused statement changes nothing. -/
def execute (db : Database) : Statement → Except RequestError (Outcome × Database)
  | createTable name columns => do
      if "sqlite_".toList.isPrefixOf (foldName name).toList then throw .database
      if Dict.contains db (foldName name) then return ({}, db)
      if columns.isEmpty || hasRepeatedName columns then throw .database
      return ({}, db.put name ⟨columns, []⟩)
  | select s => do
      let t ← db.table s.table
      if !pageFits s.limit || !pageFits s.offset then throw .database
      return ({ rows := (t.selectRows s).map (t.cellsOf s.columns) }, db)
  | insert name values returning => do
      let t ← db.table name
      if returning.isEmpty then throw .database
      let (row, t) ← t.insertRow values
      return (⟨[t.cellsOf returning row], 1⟩, db.put name t)
  | update name values keyColumn key returning => do
      let t ← db.table name
      if returning.isEmpty then throw .database
      let found := t.selectRows ⟨name, returning, [.compare keyColumn .eq key], [], none, none⟩
      if values.isEmpty then return ({ rows := found.map (t.cellsOf returning) }, db)
      let values ← t.resolveValues values
      let (changed, t) ← t.updateRows values found
      return (⟨changed.map (t.cellsOf returning), changed.length⟩, db.put name t)
  | delete name keyColumn key => do
      let t ← db.table name
      let found := t.selectRows ⟨name, [], [.compare keyColumn .eq key], [], none, none⟩
      let rest := t.rows.filter fun row => !found.any (·.number = row.number)
      return (⟨[], found.length⟩, db.put name { t with rows := rest })

/-- As `execute`, with the limit on bound values. -/
def run (db : Database) (s : Statement) : Except RequestError (Outcome × Database) :=
  if boundLimit < s.bound.length then .error .database else s.execute db

end Statement

end Sql

end EntityGraph
