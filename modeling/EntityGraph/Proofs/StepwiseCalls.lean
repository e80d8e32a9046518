import EntityGraph.Proofs.StoreAnswers

/-!
The calls of a store as programs that write it step by step. Whatever such a program has written
stays there when it fails, so a check that came after a write could leave a trace. An insert makes
the table of its entity and moves the counter before it adds the row. All the same these programs
do what the calls do, which return a new store or fail: where a key is refused, its table is there
already, and nothing else has been written.
-/

namespace EntityGraph
namespace MemoryStore

/-- A program that reads and writes the store. A failure does not take back what was written. -/
abbrev Steps (α : Type) := ExceptT RequestError (StateM MemoryStore) α

namespace Steps

variable {α β : Type}

def readTable (name : String) : Steps Table := return (← getThe MemoryStore).table name

/-- A table that is not there is made first. -/
def writeTable (name : String) (change : Table → Table) : Steps Unit :=
  modify fun s : MemoryStore => Dict.insert s name (change (s.table name))

def ofResult (r : Except RequestError α) : Steps α := ExceptT.mk (pure r)

/-- The row with its key: one that is supplied must be free, one that is missing is counted up. -/
def giveKey (e : Entity) (name : String) (row : Row) : Steps Row := do
  match e.primaryField with
  | none => return row
  | some primary =>
      let t ← readTable name
      let key := Json.field row primary
      if key.isNull then
        writeTable name fun t => { t with lastKey := successor t.lastKey }
        let t ← readTable name
        return Dict.insert row primary (.number (.int t.lastKey))
      else if t.rows.any (hasKey primary key) then
        throw (duplicateKey e key)
      else
        match integerKey? key with
        | some k => writeTable name fun t => { t with lastKey := max t.lastKey k }
        | none => pure ()
        return row

def insert (r : Registry) (name : String) (values : Row) : Steps Json := do
  match r.get? name with
  | none => throw (.unknownEntity name)
  | some e =>
      writeTable name id
      let row ← giveKey e name (declaredValues e values)
      writeTable name fun t => { t with rows := t.rows ++ [row] }
      return fullRow e row

def patch (r : Registry) (name : String) (key : Json) (values : Row) : Steps (Option Json) := do
  let (e, primary) ← ofResult (primaryOf r name)
  let t ← readTable name
  match patchFirst (hasKey primary key) (declaredValues e values) t.rows with
  | none => return none
  | some (row, rows) =>
      writeTable name fun t => { t with rows := rows }
      return some (fullRow e row)

def delete (r : Registry) (name : String) (key : Json) : Steps Nat := do
  let (_, primary) ← ofResult (primaryOf r name)
  let before ← readTable name
  writeTable name fun t => { t with rows := t.rows.filter fun row => !hasKey primary key row }
  let after ← readTable name
  return before.rows.length - after.rows.length

def select (r : Registry) (name : String) (scope : KeyScope) (plan : FetchPlan) :
    Steps (List Json) := do
  let s ← getThe MemoryStore
  ofResult (MemoryStore.select r s name scope plan)

theorem readTable_bind (name : String) (f : Table → Steps α) (s : MemoryStore) :
    (readTable name >>= f) s = f (s.table name) s := rfl

theorem writeTable_bind (name : String) (change : Table → Table) (f : Unit → Steps α)
    (s : MemoryStore) :
    (writeTable name change >>= f) s = f () (Dict.insert s name (change (s.table name))) := rfl

theorem ofResult_ok_bind (v : α) (f : α → Steps β) : (ofResult (.ok v) >>= f) = f v := rfl

theorem throw_bind (reason : RequestError) (f : α → Steps β) :
    ((throw reason : Steps α) >>= f) = throw reason := rfl

variable (r : Registry) (name : String)

theorem insert_eq (values : Row) :
    insert r name values = action fun s => MemoryStore.insert r s name values := by
  funext s
  unfold insert action MemoryStore.insert
  cases r.get? name with
  | none => rfl
  | some e =>
      dsimp only
      unfold addRow giveKey
      cases e.primaryField with
      | none =>
          simp only [writeTable_bind, pure_bind, Dict.insert_insert, table_insert, if_true]
          rfl
      | some primary =>
          simp only [writeTable_bind, readTable_bind, bind_assoc, table_insert, if_true, id]
          split
          · simp only [writeTable_bind, readTable_bind, pure_bind, bind_assoc, table_insert,
              Dict.insert_insert, if_true]
            rfl
          · split
            · -- There is a row with the key, so there is a table to hold it.
              rename_i taken
              obtain ⟨stored, hstored, _⟩ := List.any_eq_true.mp taken
              have there : Dict.get? s name = some (s.table name) := by
                cases found : Dict.get? s name with
                | none => simp [table, found] at hstored
                | some t => rw [table, found, Option.getD_some]
              rw [throw_bind, Dict.insert_of_get? there]
              rfl
            · cases integerKey? (Json.field (declaredValues e values) primary) with
              | none =>
                  simp only [writeTable_bind, pure_bind, table_insert, Dict.insert_insert, if_true]
                  rfl
              | some k =>
                  simp only [writeTable_bind, pure_bind, bind_assoc, table_insert,
                    Dict.insert_insert, if_true]
                  rfl

theorem patch_eq (key : Json) (values : Row) :
    patch r name key values = action fun s => MemoryStore.patch r s name key values := by
  funext s
  unfold patch action MemoryStore.patch
  cases primaryOf r name with
  | error reason => rfl
  | ok found =>
      obtain ⟨e, primary⟩ := found
      rw [ofResult_ok_bind]
      dsimp only
      rw [readTable_bind]
      simp only [bind, Except.bind]
      cases patchFirst (hasKey primary key) (declaredValues e values) (s.table name).rows <;> rfl

theorem delete_eq (key : Json) :
    delete r name key = action fun s => MemoryStore.delete r s name key := by
  funext s
  unfold delete action MemoryStore.delete
  cases primaryOf r name with
  | error reason => rfl
  | ok found =>
      obtain ⟨e, primary⟩ := found
      rw [ofResult_ok_bind]
      simp only [readTable_bind, writeTable_bind, table_insert, if_true]
      rfl

theorem select_eq (scope : KeyScope) (plan : FetchPlan) :
    select r name scope plan = action fun s =>
      (MemoryStore.select r s name scope plan).map fun rows => (rows, s) := by
  funext s
  have read : select r name scope plan s = (MemoryStore.select r s name scope plan, s) := rfl
  rw [read, action]
  cases MemoryStore.select r s name scope plan <;> rfl

end Steps

/-- The store whose calls write step by step. -/
def stepwise (r : Registry) : Storage MemoryStore where
  select := Steps.select r
  insert := Steps.insert r
  patch := Steps.patch r
  delete := Steps.delete r

theorem stepwise_eq_storage (r : Registry) : stepwise r = storage r := by
  unfold stepwise storage
  congr 1
  · funext name scope plan
    exact Steps.select_eq r name scope plan
  · funext name values
    exact Steps.insert_eq r name values
  · funext name key values
    exact Steps.patch_eq r name key values
  · funext name key
    exact Steps.delete_eq r name key

end MemoryStore
end EntityGraph
