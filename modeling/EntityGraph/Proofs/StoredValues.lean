import EntityGraph.Proofs.CountedKeys
import EntityGraph.Proofs.JoinKeys
import EntityGraph.Proofs.RowByRow

/-!
What a table holds whose rows were read from texts. A value that is stored was read or is a key
that was counted up, so it is such as the reader makes, and stored values that join are equal.
-/

namespace EntityGraph
namespace MemoryStore

open Json

/-- What the call writes, if it writes anything, satisfies `p`. -/
def Call.Writes (p : Row → Prop) : Call → Prop
  | .insert _ row => p row
  | .patch _ _ values => p values
  | .delete _ _ => True

/-- The row is what the reader makes of a text. -/
def FromText (row : Row) : Prop := ∃ text, read? text = some (.object row)

/-- What is stored is such as the reader makes, and so is the counter. -/
structure ProperTable (t : Table) : Prop where
  values : ∀ row ∈ t.rows, ProperFields row
  counter : Signed64 t.lastKey

variable {r : Registry} {s : MemoryStore} {e : Entity} {t : Table}

theorem Call.Writes.imp {p q : Row → Prop} (h : ∀ row, p row → q row) {call : Call}
    (writes : call.Writes p) : call.Writes q := by
  cases call with
  | insert entity row => exact h row writes
  | patch entity key values => exact h values writes
  | delete entity key => trivial

theorem FromText.properFields {row : Row} (h : FromText row) : ProperFields row := by
  obtain ⟨text, read⟩ := h
  exact (proper_of_read? read).2

theorem properFields_declaredValues (e : Entity) {values : Row} (proper : ProperFields values) :
    ProperFields (declaredValues e values) :=
  properFields_iff.mpr fun v hv => properFields_iff.mp proper v (List.mem_of_mem_filter hv)

theorem proper_integer {k : Int} (signed : Signed64 k) : Json.Proper (.integer k) := by
  obtain ⟨least, most⟩ := signed
  exact ⟨least, by omega⟩

theorem proper_field {row : Row} (proper : ProperFields row) (column : String) :
    (Json.field row column).Proper := by
  rw [Json.field]
  cases found : Dict.get? row column with
  | none => trivial
  | some v => exact properFields_iff.mp proper _ (Dict.mem_of_get? found)

namespace ProperTable

theorem append (h : ProperTable t) {row : Row} (proper : ProperFields row) {last : Int}
    (counter : Signed64 last) : ProperTable ⟨t.rows ++ [row], last⟩ where
  values := by
    intro other hother
    obtain old | new := List.mem_append.mp hother
    · exact h.values other old
    · rwa [List.mem_singleton.mp new]
  counter := counter

theorem addRow (h : ProperTable t) {row added : Row} {after : Table} (proper : ProperFields row)
    (done : MemoryStore.addRow e t row = .ok (added, after)) : ProperTable after := by
  cases hprimary : e.primaryField with
  | none =>
      simp only [MemoryStore.addRow, hprimary] at done
      cases done
      exact h.append proper h.counter
  | some primary =>
      simp only [MemoryStore.addRow, hprimary] at done
      split at done
      · -- The key is counted up.
        cases done
        have counter := signed64_successor h.counter
        exact h.append (properFields_insert proper primary (proper_integer counter)) counter
      · split at done
        · cases done
        · cases done
          refine h.append proper ?_
          split
          · rename_i k found
            have below := (eq_of_integerKey? found).2
            exact ⟨le_max_of_le_left h.counter.1, max_lt h.counter.2 below⟩
          · exact h.counter

theorem patchFirst (h : ProperTable t) {isPatched : Row → Bool} {values found : Row}
    {rows : List Row} (proper : ProperFields values)
    (patched : MemoryStore.patchFirst isPatched values t.rows = some (found, rows)) :
    ProperTable { t with rows } where
  values := by
    obtain ⟨before, row, after, split, _, _, rfl, rfl⟩ := patchFirst_eq_some patched
    have stored : ∀ other ∈ before ++ row :: after, ProperFields other := split ▸ h.values
    simp only [List.forall_mem_append, List.forall_mem_cons] at stored ⊢
    exact ⟨stored.1, properFields_insertAll stored.2.1 proper, stored.2.2⟩
  counter := h.counter

theorem filter (h : ProperTable t) (p : Row → Bool) :
    ProperTable { t with rows := t.rows.filter p } where
  values := fun row hrow => h.values row (List.mem_of_mem_filter hrow)
  counter := h.counter

theorem rewrites (h : ProperTable t) {call : Call} (proper : call.Writes ProperFields)
    {after : Table} (step : Rewrites t call after) : ProperTable after := by
  cases step with
  | added done => exact h.addRow (properFields_declaredValues _ proper) done
  | patched done => exact h.patchFirst (properFields_declaredValues _ proper) done
  | removed => exact h.filter _

end ProperTable

/-- One call with proper values leaves every table proper. -/
theorem properTable_apply (h : ∀ name, ProperTable (s.table name)) {call : Call}
    (proper : call.Writes ProperFields) (name : String) :
    ProperTable ((apply r s call).table name) := by
  obtain same | ⟨t, rewrites, written⟩ := apply_cases (r := r) (s := s) call
  · rw [same]
    exact h name
  · have own := (h call.entity).rewrites proper rewrites
    rw [written, table_insert]
    split
    · exact own
    · exact h name

/-- After calls that write what was read from texts, every table is proper. -/
theorem properTable_run {calls : List Call} (read : ∀ call ∈ calls, call.Writes FromText)
    (name : String) : ProperTable ((run r [] calls).table name) := by
  induction calls using List.reverseRecOn generalizing name with
  | nil =>
      have counter : Signed64 0 := ⟨by decide, by decide⟩
      exact ⟨fun row hrow => absurd hrow List.not_mem_nil, counter⟩
  | append_singleton calls call ih =>
      rw [List.forall_mem_append, List.forall_mem_singleton] at read
      rw [run_append_singleton]
      exact properTable_apply (ih read.1) (read.2.imp fun row => FromText.properFields) name

/-- Proper values that join are equal. -/
theorem joinsEqual_of_proper (proper : ∀ v, s.JoinValue r v → v.Proper) : s.JoinsEqual r :=
  fun v w hv hw => equal_of_joinKey_eq (proper v hv) (proper w hw)

/-- In every state that is reached by such calls, stored values that join are equal. -/
theorem joinsEqual_run {calls : List Call} (read : ∀ call ∈ calls, call.Writes FromText) :
    (run r [] calls).JoinsEqual r := by
  refine joinsEqual_of_proper ?_
  rintro _ ⟨e, column, row, _, stored, rfl⟩
  exact proper_field ((properTable_run read e.name).values row stored) column

end MemoryStore
end EntityGraph
