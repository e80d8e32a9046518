import Mathlib.Data.List.Induction
import EntityGraph.Proofs.Registry
import EntityGraph.Store.Memory

/-!
When the rows of an entity keep different keys over a run of writing calls. Deleting is always
safe and so is inserting under a key of the caller, which is refused when it is taken. A key that
is counted up is not compared with those that are there, and a patch may write any key.
-/

namespace EntityGraph
namespace MemoryStore

/-- Every row has a key, and no row has the key of an earlier one. -/
structure KeysUnique (primary : String) (rows : List Row) : Prop where
  present : ∀ row ∈ rows, (Json.field row primary).isNull = false
  distinct : rows.Pairwise fun a b =>
    (Json.field a primary).equal (Json.field b primary) = false

inductive Call where
  | insert (entity : String) (row : Row)
  | patch (entity : String) (key : Json) (values : Row)
  | delete (entity : String) (key : Json)

/-- The store after the call; a call that fails leaves it as it was. -/
def apply (r : Registry) (s : MemoryStore) : Call → MemoryStore
  | .insert entity row =>
      match insert r s entity row with
      | .ok (_, after) => after
      | .error _ => s
  | .patch entity key values =>
      match patch r s entity key values with
      | .ok (_, after) => after
      | .error _ => s
  | .delete entity key =>
      match delete r s entity key with
      | .ok (_, after) => after
      | .error _ => s

def run (r : Registry) (s : MemoryStore) (calls : List Call) : MemoryStore :=
  calls.foldl (apply r) s

namespace Call

def entity : Call → String
  | .insert entity _ | .patch entity _ _ | .delete entity _ => entity

/-- The call does not give a row of the table the key of another. A key that is counted up must
be free; a patch must leave its row with a key, and with one that no other row has. -/
def Safe (e : Entity) (primary : String) (t : Table) : Call → Prop
  | .insert _ row =>
      (Json.field (declaredValues e row) primary).isNull = true →
        t.rows.any (hasKey primary (.number (.int (successor t.lastKey)))) = false
  | .patch _ key values =>
      ∀ before row after, t.rows = before ++ row :: after →
        (∀ other ∈ before, hasKey primary key other = false) → hasKey primary key row = true →
        let written := Json.field (Dict.insertAll row (declaredValues e values)) primary
        written.isNull = false ∧
          (∀ other ∈ before, (Json.field other primary).equal written = false) ∧
          ∀ other ∈ after, written.equal (Json.field other primary) = false
  | .delete _ _ => True

end Call

variable {primary : String} {rows : List Row}

theorem hasKey_eq {row : Row} (present : (Json.field row primary).isNull = false) (key : Json) :
    hasKey primary key row = (Json.field row primary).equal key := by
  unfold hasKey Json.field at *
  cases found : Dict.get? row primary with
  | none => simp [found, Json.isNull] at present
  | some v => rfl

theorem KeysUnique.filter (h : KeysUnique primary rows) (p : Row → Bool) :
    KeysUnique primary (rows.filter p) :=
  ⟨fun row hrow => h.present row (List.mem_of_mem_filter hrow), h.distinct.filter p⟩

theorem keysUnique_append_iff (h : KeysUnique primary rows) (row : Row) :
    KeysUnique primary (rows ++ [row]) ↔ (Json.field row primary).isNull = false ∧
      rows.any (hasKey primary (Json.field row primary)) = false := by
  have free : rows.any (hasKey primary (Json.field row primary)) = false ↔
      ∀ other ∈ rows, (Json.field other primary).equal (Json.field row primary) = false := by
    rw [List.any_eq_false]
    refine forall₂_congr ?_
    intro other hother
    rw [hasKey_eq (h.present other hother), Bool.not_eq_true]
  rw [free]
  constructor
  · intro h
    obtain ⟨present, distinct⟩ := h
    refine ⟨present row (by simp), ?_⟩
    intro other hother
    exact (List.pairwise_append.mp distinct).2.2 other hother row (by simp)
  · intro h
    obtain ⟨present, apart⟩ := h
    refine ⟨?_, List.pairwise_append.mpr ⟨h.distinct, List.pairwise_singleton _ _, ?_⟩⟩
    · intro other hother
      cases List.mem_append.mp hother with
      | inl hother => exact h.present other hother
      | inr hother =>
          rw [List.mem_singleton.mp hother]
          exact present
    · intro other hother added hadded
      rw [List.mem_singleton.mp hadded]
      exact apart other hother

theorem keysUnique_replace_iff {before after : List Row} {row : Row}
    (h : KeysUnique primary (before ++ row :: after)) (written : Row) :
    KeysUnique primary (before ++ written :: after) ↔
      (Json.field written primary).isNull = false ∧
      (∀ other ∈ before,
        (Json.field other primary).equal (Json.field written primary) = false) ∧
      ∀ other ∈ after,
        (Json.field written primary).equal (Json.field other primary) = false := by
  obtain ⟨present, distinct⟩ := h
  obtain ⟨first, rest, across⟩ := List.pairwise_append.mp distinct
  obtain ⟨_, last⟩ := List.pairwise_cons.mp rest
  constructor
  · intro h
    obtain ⟨present, distinct⟩ := h
    obtain ⟨_, rest, across⟩ := List.pairwise_append.mp distinct
    exact ⟨present written (by simp), fun other hother => across other hother written (by simp),
      (List.pairwise_cons.mp rest).1⟩
  · intro h
    obtain ⟨key, earlier, later⟩ := h
    constructor
    · intro other hother
      cases List.mem_append.mp hother with
      | inl hother => exact present other (List.mem_append_left _ hother)
      | inr hother =>
          cases hother with
          | head => exact key
          | tail _ hother =>
              exact present other (List.mem_append_right _ (List.mem_cons_of_mem _ hother))
    · refine List.pairwise_append.mpr ⟨first, List.pairwise_cons.mpr ⟨later, last⟩, ?_⟩
      intro other hother changed hchanged
      cases hchanged with
      | head => exact earlier other hother
      | tail _ hchanged => exact across other hother changed (List.mem_cons_of_mem _ hchanged)

theorem table_insert (s : MemoryStore) (entity name : String) (t : Table) :
    table (Dict.insert s entity t) name = if entity = name then t else s.table name := by
  unfold table
  rw [Dict.get?_insert]
  split <;> rfl

/-- What patching the first row that satisfies `p` does to the rows. -/
theorem patchFirst_eq_some {p : Row → Bool} {values found : Row} {changed : List Row}
    (h : patchFirst p values rows = some (found, changed)) :
    ∃ before row after, rows = before ++ row :: after ∧ (∀ other ∈ before, p other = false) ∧
      p row = true ∧ found = Dict.insertAll row values ∧ changed = before ++ found :: after := by
  induction rows generalizing changed with
  | nil => cases h
  | cons row rest ih =>
      rw [patchFirst] at h
      split at h
      · rename_i hit
        cases h
        exact ⟨[], row, rest, rfl, by simp, hit, rfl, rfl⟩
      · rename_i miss
        obtain ⟨⟨_, below⟩, hbelow, heq⟩ := Option.map_eq_some_iff.mp h
        cases heq
        obtain ⟨before, hit, after, rfl, misses, hhit, written, rfl⟩ := ih hbelow
        refine ⟨row :: before, hit, after, rfl, ?_, hhit, written, rfl⟩
        intro other hother
        cases hother with
        | head => simpa using miss
        | tail _ hother => exact misses other hother

theorem patchFirst_eq_none {p : Row → Bool} {values : Row}
    (h : patchFirst p values rows = none) : ∀ row ∈ rows, p row = false := by
  induction rows with
  | nil => simp
  | cons row rest ih =>
      rw [patchFirst] at h
      split at h
      · cases h
      · rename_i miss
        intro other hother
        cases hother with
        | head => simpa using miss
        | tail _ hother => exact ih (Option.map_eq_none_iff.mp h) other hother

/-- There is one way to split rows at the first that satisfies `p`. -/
private theorem split_at_first_unique {p : Row → Bool} {before before' after after' : List Row}
    {row row' : Row} (same : before ++ row :: after = before' ++ row' :: after')
    (misses : ∀ other ∈ before, p other = false) (hit : p row = true)
    (misses' : ∀ other ∈ before', p other = false) (hit' : p row' = true) :
    before = before' ∧ row = row' ∧ after = after' := by
  induction before generalizing before' with
  | nil =>
      cases before' with
      | nil =>
          cases same
          exact ⟨rfl, rfl, rfl⟩
      | cons first rest =>
          cases same
          rw [misses' row List.mem_cons_self] at hit
          cases hit
  | cons first rest ih =>
      cases before' with
      | nil =>
          cases same
          rw [misses row' List.mem_cons_self] at hit'
          cases hit'
      | cons first' rest' =>
          obtain ⟨rfl, tails⟩ := List.cons.inj same
          obtain ⟨rfl, rfl, rfl⟩ := ih tails
            (fun other h => misses other (List.mem_cons_of_mem _ h))
            fun other h => misses' other (List.mem_cons_of_mem _ h)
          exact ⟨rfl, rfl, rfl⟩

section Step

variable {r : Registry} {s : MemoryStore} {name : String} {e : Entity}

/-- What a call makes of the table that it writes. -/
inductive Rewrites (t : Table) : Call → Table → Prop
  | added {e : Entity} {entity : String} {row : Row} {stored : Row × Table} :
      addRow e t (declaredValues e row) = .ok stored →
      Rewrites t (.insert entity row) stored.2
  | patched {e : Entity} {entity primary : String} {key : Json} {values : Row}
      {changed : Row × List Row} :
      patchFirst (hasKey primary key) (declaredValues e values) t.rows = some changed →
      Rewrites t (.patch entity key values) { t with rows := changed.2 }
  | removed {entity primary : String} {key : Json} :
      Rewrites t (.delete entity key)
        { t with rows := t.rows.filter fun row => !hasKey primary key row }

/-- A call writes one table, or none. -/
theorem apply_cases (call : Call) :
    apply r s call = s ∨
      ∃ t, Rewrites (s.table call.entity) call t ∧ apply r s call = Dict.insert s call.entity t := by
  cases call with
  | insert entity row =>
      simp only [apply, insert]
      cases r.get? entity with
      | none => exact .inl rfl
      | some e =>
          simp only
          cases added : addRow e (s.table entity) (declaredValues e row) with
          | error reason => exact .inl rfl
          | ok stored => exact .inr ⟨stored.2, .added added, rfl⟩
  | patch entity key values =>
      simp only [apply, patch]
      cases primaryOf r entity with
      | error reason => exact .inl rfl
      | ok found =>
          obtain ⟨e, primary⟩ := found
          simp only [bind, Except.bind]
          cases patched : patchFirst (hasKey primary key) (declaredValues e values)
              (s.table entity).rows with
          | none => exact .inl rfl
          | some changed => exact .inr ⟨_, .patched patched, rfl⟩
  | delete entity key =>
      simp only [apply, delete]
      cases primaryOf r entity with
      | error reason => exact .inl rfl
      | ok found => exact .inr ⟨_, .removed, rfl⟩

theorem table_apply_of_ne {call : Call} (h : call.entity ≠ name) :
    (apply r s call).table name = s.table name := by
  obtain same | ⟨t, _, written⟩ := apply_cases call
  · rw [same]
  · rw [written, table_insert, if_neg h]

theorem table_apply_insert (registered : r.get? name = some e) (row : Row) :
    (apply r s (.insert name row)).table name =
      match addRow e (s.table name) (declaredValues e row) with
      | .ok (_, t) => t
      | .error _ => s.table name := by
  simp only [apply, insert, registered]
  cases added : addRow e (s.table name) (declaredValues e row) with
  | error reason => rfl
  | ok stored => exact (table_insert s name name stored.2).trans (if_pos rfl)

theorem table_apply_patch (registered : r.get? name = some e)
    (hprimary : e.primaryField = some primary) (key : Json) (values : Row) :
    (apply r s (.patch name key values)).table name =
      match patchFirst (hasKey primary key) (declaredValues e values) (s.table name).rows with
      | some (_, changed) => { s.table name with rows := changed }
      | none => s.table name := by
  simp only [apply, patch, primaryOf, registered, hprimary, bind, Except.bind]
  cases patchFirst (hasKey primary key) (declaredValues e values) (s.table name).rows with
  | none => rfl
  | some changed => exact (table_insert s name name _).trans (if_pos rfl)

theorem table_apply_delete (registered : r.get? name = some e)
    (hprimary : e.primaryField = some primary) (key : Json) :
    (apply r s (.delete name key)).table name =
      { s.table name with
        rows := (s.table name).rows.filter fun row => !hasKey primary key row } := by
  simp only [apply, delete, primaryOf, registered, hprimary, bind, Except.bind]
  exact (table_insert s name name _).trans (if_pos rfl)

private theorem keysUnique_insert_iff (registered : r.get? name = some e)
    (hprimary : e.primaryField = some primary) (h : KeysUnique primary (s.table name).rows)
    (row : Row) :
    KeysUnique primary ((apply r s (.insert name row)).table name).rows ↔
      (Call.insert name row).Safe e primary (s.table name) := by
  rw [table_apply_insert registered, addRow, hprimary, Call.Safe]
  dsimp only
  by_cases missing : (Json.field (declaredValues e row) primary).isNull = true
  · rw [if_pos missing]
    dsimp only
    rw [keysUnique_append_iff h, Json.field_insert, if_pos rfl]
    exact ⟨fun free _ => free.2, fun free => ⟨rfl, free missing⟩⟩
  · rw [if_neg missing]
    have safe : (Call.insert name row).Safe e primary (s.table name) :=
      fun null => absurd null missing
    refine iff_of_true ?_ safe
    by_cases taken : (s.table name).rows.any
        (hasKey primary (Json.field (declaredValues e row) primary)) = true
    · rw [if_pos taken]
      exact h
    · rw [if_neg taken]
      exact (keysUnique_append_iff h _).mpr
        ⟨Bool.eq_false_iff.mpr missing, Bool.eq_false_iff.mpr taken⟩

private theorem keysUnique_patch_iff (registered : r.get? name = some e)
    (hprimary : e.primaryField = some primary) (h : KeysUnique primary (s.table name).rows)
    (key : Json) (values : Row) :
    KeysUnique primary ((apply r s (.patch name key values)).table name).rows ↔
      (Call.patch name key values).Safe e primary (s.table name) := by
  rw [table_apply_patch registered hprimary]
  cases patched : patchFirst (hasKey primary key) (declaredValues e values)
      (s.table name).rows with
  | none =>
      refine iff_of_true h ?_
      intro before row after split _ hit
      have miss := patchFirst_eq_none patched row (by simp [split])
      rw [miss] at hit
      cases hit
  | some changed =>
      obtain ⟨found, rows⟩ := changed
      obtain ⟨before, row, after, split, misses, hit, rfl, rfl⟩ := patchFirst_eq_some patched
      rw [split] at h
      dsimp only
      rw [keysUnique_replace_iff h]
      constructor
      · intro written before' row' after' split' misses' hit'
        obtain ⟨rfl, rfl, rfl⟩ :=
          split_at_first_unique (split.symm.trans split') misses hit misses' hit'
        exact written
      · intro safe
        exact safe before row after split misses hit

/-- From rows with different keys, a call leads to such rows exactly when it is safe. -/
theorem keysUnique_apply_iff (registered : r.get? name = some e)
    (hprimary : e.primaryField = some primary) (h : KeysUnique primary (s.table name).rows)
    {call : Call} (own : call.entity = name) :
    KeysUnique primary ((apply r s call).table name).rows ↔
      call.Safe e primary (s.table name) := by
  subst own
  cases call with
  | insert name row => exact keysUnique_insert_iff registered hprimary h row
  | patch name key values => exact keysUnique_patch_iff registered hprimary h key values
  | delete name key =>
      refine iff_of_true ?_ trivial
      have removed := congrArg Table.rows (table_apply_delete (s := s) registered hprimary key)
      exact removed ▸ h.filter _

/-- In every state of a run from the empty store the keys are different exactly when every call
of the run is safe where it is made. -/
theorem keysUnique_run_iff (registered : r.get? name = some e)
    (hprimary : e.primaryField = some primary) (calls : List Call) :
    (∀ done rest, calls = done ++ rest → KeysUnique primary ((run r [] done).table name).rows) ↔
      ∀ done call rest, calls = done ++ call :: rest → call.entity = name →
        call.Safe e primary ((run r [] done).table name) := by
  have step : ∀ done call, run r [] (done ++ [call]) = apply r (run r [] done) call := by
    intro done call
    simp [run]
  constructor
  · intro unique done call rest split own
    have here := unique done (call :: rest) split
    have next := unique (done ++ [call]) rest (by simp [split])
    rw [step] at next
    exact (keysUnique_apply_iff registered hprimary here own).mp next
  · intro safe done
    induction done using List.reverseRecOn with
    | nil =>
        intro _ _
        exact ⟨fun row h => absurd h List.not_mem_nil, List.Pairwise.nil⟩
    | append_singleton done call ih =>
        intro rest split
        have split : calls = done ++ call :: rest := by simpa using split
        have here := ih (call :: rest) split
        rw [step]
        by_cases own : call.entity = name
        · exact (keysUnique_apply_iff registered hprimary here own).mpr
            (safe done call rest split own)
        · rwa [table_apply_of_ne own]

end Step

end MemoryStore

namespace Catalog
open MemoryStore

/-- Two categories, the second of which is then given the key of the first. -/
def rekeying : List MemoryStore.Call :=
  [.insert "Category" [("id", .ofInt 1), ("name", .string "Systems")],
   .insert "Category" [("id", .ofInt 2), ("name", .string "Web")],
   .patch "Category" (.ofInt 2) [("id", .ofInt 1)]]

theorem not_keysUnique_rekeying :
    ¬ KeysUnique "id" ((run registry [] rekeying).table "Category").rows := by
  intro unique
  exact absurd unique.2 (by decide +kernel)

/-- Inserting under two keys of the caller. -/
theorem keysUnique_two_categories :
    registry.get? "Category" = some category ∧ category.primaryField = some "id" ∧
    ∀ done rest, rekeying.take 2 = done ++ rest →
      KeysUnique "id" ((run registry [] done).table "Category").rows := by
  refine ⟨rfl, rfl, (keysUnique_run_iff rfl rfl (rekeying.take 2)).mpr ?_⟩
  intro done call rest split _
  match done with
  | [] =>
    cases split
    exact fun missing => absurd missing (by decide)
  | [_] =>
    cases split
    exact fun missing => absurd missing (by decide)
  | _ :: _ :: more => simp [rekeying] at split

end Catalog
end EntityGraph
