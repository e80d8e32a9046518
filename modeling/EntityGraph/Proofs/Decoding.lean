import Mathlib.Data.List.Duplicate
import EntityGraph.Proofs.Registry
import EntityGraph.Sql.Store

/-!
The rows that are read back from stored ones. A column is read as the type that the entity
declares; a column that is taken out of a row twice is null the second time.
-/

namespace EntityGraph

namespace Sql

theorem decodeCell_eq_null {type : Option ScalarType} {c : Cell}
    (h : decodeCell type c = .ok .null) : c = .null := by
  cases c with
  | null => rfl
  | int n | real d | text s =>
      cases type with
      | none => cases h
      | some type =>
          simp only [decodeCell] at h
          split at h
          · cases h
          · split at h
            · cases h
            · split at h <;> cases h

/-- What a column shows of a stored row, null where it cannot be read. -/
def shownValue (e : Entity) (t : StoredTable) (row : StoredRow) (column : String) : Json :=
  (decodeCell (e.scalarType? column) (t.cellOf row column)).toOption.getD .null

/-- Each of the columns can be read as its type. -/
def Readable (e : Entity) (t : StoredTable) (columns : List String) (row : StoredRow) : Prop :=
  ∀ c ∈ columns, ∃ v, decodeCell (e.scalarType? c) (t.cellOf row c) = .ok v

def shownRow (e : Entity) (t : StoredTable) (columns : List String) (row : StoredRow) : Row :=
  Dict.ofList (columns.map fun c => (c, shownValue e t row c))

variable {e : Entity} {t : StoredTable} {columns : List String}

theorem shownValue_of_decodeCell {row : StoredRow} {c : String} {v : Json}
    (h : decodeCell (e.scalarType? c) (t.cellOf row c) = .ok v) : shownValue e t row c = v := by
  rw [shownValue, h]
  rfl

theorem field_shownRow {c : String} (h : c ∈ columns) (row : StoredRow) :
    Json.field (shownRow e t columns row) c = shownValue e t row c :=
  Json.field_ofList_map columns _ h

theorem shownValue_eq_null_iff {row : StoredRow} {c : String} (readable : Readable e t columns row)
    (h : c ∈ columns) : shownValue e t row c = .null ↔ t.cellOf row c = .null := by
  obtain ⟨v, hv⟩ := readable c h
  rw [shownValue_of_decodeCell hv]
  constructor
  · intro null
    subst null
    exact decodeCell_eq_null hv
  · intro null
    rw [null] at hv
    cases hv
    rfl

theorem decodeRow_eq_ok_iff {row : StoredRow} {done found : Row} :
    decodeRow e done (columns.zip (t.cellsOf columns row)) = .ok found ↔
      Readable e t columns row ∧
        found = Dict.insertAll done (columns.map fun c => (c, shownValue e t row c)) := by
  induction columns generalizing done with
  | nil =>
      have nothing : decodeRow e done ([].zip (t.cellsOf [] row)) = .ok done := rfl
      rw [nothing]
      constructor
      · intro impossible
        cases impossible
        exact ⟨fun c h => absurd h List.not_mem_nil, rfl⟩
      · intro h
        obtain ⟨_, rfl⟩ := h
        rfl
  | cons c rest ih =>
      have step : decodeRow e done ((c :: rest).zip (t.cellsOf (c :: rest) row)) =
          decodeCell (e.scalarType? c) (t.cellOf row c) >>= fun v =>
            decodeRow e (Dict.insert done c v) (rest.zip (t.cellsOf rest row)) := rfl
      rw [step]
      cases hc : decodeCell (e.scalarType? c) (t.cellOf row c) with
      | error reason =>
          constructor
          · intro impossible
            cases impossible
          · intro h
            obtain ⟨readable, _⟩ := h
            obtain ⟨v, hv⟩ := readable c List.mem_cons_self
            rw [hc] at hv
            cases hv
      | ok v =>
          have head : shownValue e t row c = v := shownValue_of_decodeCell hc
          have readable_cons : Readable e t (c :: rest) row ↔ Readable e t rest row := by
            rw [Readable, List.forall_mem_cons]
            exact and_iff_right ⟨v, hc⟩
          rw [readable_cons, List.map_cons, head]
          exact ih

theorem decodeRows_eq_ok_iff {rows : List StoredRow} {found : List Row} :
    SqlStore.decodeRows e columns (rows.map (t.cellsOf columns)) = .ok found ↔
      (∀ row ∈ rows, Readable e t columns row) ∧ found = rows.map (shownRow e t columns) := by
  induction rows generalizing found with
  | nil =>
      constructor
      · intro impossible
        cases impossible
        exact ⟨fun row h => absurd h List.not_mem_nil, rfl⟩
      · intro h
        obtain ⟨_, rfl⟩ := h
        rfl
  | cons row rest ih =>
      have step : SqlStore.decodeRows e columns ((row :: rest).map (t.cellsOf columns)) =
          decodeRow e [] (columns.zip (t.cellsOf columns row)) >>= fun first =>
            SqlStore.decodeRows e columns (rest.map (t.cellsOf columns)) >>= fun more =>
              pure (first :: more) := by
        rw [SqlStore.decodeRows, List.map_cons, List.mapM_cons]
        rfl
      rw [step, List.forall_mem_cons]
      constructor
      · intro h
        obtain ⟨first, hfirst, h⟩ := Except.bind_eq_ok.mp h
        obtain ⟨more, hmore, h⟩ := Except.bind_eq_ok.mp h
        cases h
        obtain ⟨readable, rfl⟩ := decodeRow_eq_ok_iff.mp hfirst
        obtain ⟨others, rfl⟩ := ih.mp hmore
        exact ⟨⟨readable, others⟩, rfl⟩
      · intro h
        obtain ⟨⟨readable, others⟩, rfl⟩ := h
        exact Except.bind_eq_ok.mpr ⟨_, decodeRow_eq_ok_iff.mpr ⟨readable, rfl⟩,
          Except.bind_eq_ok.mpr ⟨_, ih.mpr ⟨others, rfl⟩, rfl⟩⟩

end Sql

namespace SqlStore

private def taken (row : Row) : List String → Row
  | [] => []
  | c :: rest => (c, Json.field row c) :: taken (row.erase c) rest

private theorem takeColumns_eq_insertAll (row done : Row) (columns : List String) :
    takeColumns row done columns = Dict.insertAll done (taken row columns) := by
  induction columns generalizing row done with
  | nil => rfl
  | cons c rest ih => exact ih _ _

private theorem taken_eq_map {row : Row} {columns : List String}
    (h : ∀ c, List.Duplicate c columns → Json.field row c = .null) :
    taken row columns = columns.map fun c => (c, Json.field row c) := by
  induction columns generalizing row with
  | nil => rfl
  | cons c rest ih =>
      have same : ∀ other ∈ rest, Json.field (row.erase c) other = Json.field row other := by
        intro other hother
        rw [Json.field_erase]
        split
        · rename_i heq
          rw [heq] at hother ⊢
          exact (h c (.cons_mem hother)).symm
        · rfl
      have below := @ih (row.erase c) fun other hother => by
        rw [same other hother.mem]
        exact h other (.cons_duplicate hother)
      rw [taken, below, List.map_cons]
      congr 1
      refine List.map_congr_left ?_
      intro other hother
      rw [same other hother]

private theorem keys_taken (row : Row) (columns : List String) :
    Dict.keys (taken row columns) = columns := by
  induction columns generalizing row with
  | nil => rfl
  | cons c rest ih => exact congrArg (c :: ·) (ih (row.erase c))

private theorem get?_taken_of_null {row : Row} {columns : List String} {c : String}
    (h : c ∈ columns) (null : Json.field row c = .null) :
    Dict.get? (taken row columns).reverse c = some .null := by
  induction columns generalizing row with
  | nil => simp at h
  | cons first rest ih =>
      rw [taken, List.reverse_cons, Dict.get?_append]
      by_cases later : c ∈ rest
      · have still : Json.field (row.erase first) c = .null := by
          rw [Json.field_erase, null, ite_self]
        rw [ih later still, Option.some_or]
      · have same : c = first := (List.mem_cons.mp h).resolve_right later
        have absent : Dict.get? (taken (row.erase first) rest).reverse c = none := by
          have keys := keys_taken (row.erase first) rest
          rw [Dict.keys] at keys
          rwa [Dict.get?_eq_none_iff, Dict.keys, List.map_reverse, List.mem_reverse, keys]
        rw [absent, Option.none_or, ← same, null, Dict.get?, if_pos rfl]

/-- A column that is taken twice is null in the end. -/
private theorem get?_taken_of_duplicate {row : Row} {columns : List String} {c : String}
    (h : List.Duplicate c columns) : Dict.get? (taken row columns).reverse c = some .null := by
  induction h generalizing row with
  | cons_mem member =>
      have erased : Json.field (row.erase c) c = .null := by
        rw [Json.field_erase, if_pos rfl]
      rw [taken, List.reverse_cons, Dict.get?_append, get?_taken_of_null member erased,
        Option.some_or]
  | cons_duplicate _ ih => rw [taken, List.reverse_cons, Dict.get?_append, ih, Option.some_or]

/-- Taking columns out of a row yields each of them when those that are named twice are null. -/
theorem takeColumns_eq_ofList {row : Row} {columns : List String}
    (h : ∀ c, List.Duplicate c columns → Json.field row c = .null) :
    takeColumns row [] columns = Dict.ofList (columns.map fun c => (c, Json.field row c)) := by
  rw [takeColumns_eq_insertAll, taken_eq_map h]
  rfl

theorem field_takeColumns_of_duplicate (row : Row) {columns : List String} {c : String}
    (h : List.Duplicate c columns) : Json.field (takeColumns row [] columns) c = .null := by
  rw [takeColumns_eq_insertAll, Json.field, Dict.get?_insertAll, get?_taken_of_duplicate h]
  rfl

end SqlStore
end EntityGraph
