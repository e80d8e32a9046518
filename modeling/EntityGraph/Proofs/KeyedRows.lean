import Mathlib.Algebra.Order.Ring.Int
import EntityGraph.Proofs.Keys

/-!
A table with integer keys as a map from keys to rows, in the order in which the keys arrived.
Rows are added at the end, under keys that are free; writing into a row leaves its key and its
place. Keys are compared as doubles, so that the first row with a key may be under another one.
-/

namespace EntityGraph

/-- The value that is an integer. -/
abbrev Json.integer (k : Int) : Json := .number (.int k)

/-- Rows with their keys, oldest first. -/
abbrev KeyedRows := List (Int × Row)

namespace KeyedRows

def keys (m : KeyedRows) : List Int := m.map (·.1)

def get? (m : KeyedRows) (k : Int) : Option Row := (m.find? (·.1 = k)).map (·.2)

/-- Writes the values into the row under the key, which keeps its place. -/
def override (m : KeyedRows) (k : Int) (values : Row) : KeyedRows :=
  m.map fun entry => if entry.1 = k then (entry.1, Dict.insertAll entry.2 values) else entry

def erase (m : KeyedRows) (k : Int) : KeyedRows := m.filter fun entry => entry.1 ≠ k

variable {m : KeyedRows} {k : Int}

theorem get?_eq_none_iff : get? m k = none ↔ k ∉ m.keys := by
  rw [get?, Option.map_eq_none_iff, List.find?_eq_none, keys, List.mem_map, not_exists]
  refine forall_congr' ?_
  intro entry
  rw [not_and]
  exact imp_congr_right fun _ => by simp

theorem get?_eq_some_iff (distinct : m.keys.Nodup) {row : Row} :
    get? m k = some row ↔ (k, row) ∈ m := by
  induction m with
  | nil => simp [get?]
  | cons entry rest ih =>
      obtain ⟨own, first⟩ := entry
      obtain ⟨new, distinct⟩ := List.nodup_cons.mp distinct
      by_cases same : own = k
      · have absent : (k, row) ∉ rest := by
          intro member
          exact new (same ▸ List.mem_map_of_mem (f := (·.1)) member)
        simp [get?, same, absent, eq_comm]
      · have below := ih distinct
        simp only [get?] at below
        simp [get?, same, Ne.symm same, below]

/-- Only the row under the key is written. -/
theorem override_append_cons {before after : KeyedRows} {row : Row}
    (distinct : (keys (before ++ (k, row) :: after)).Nodup) (values : Row) :
    override (before ++ (k, row) :: after) k values =
      before ++ (k, Dict.insertAll row values) :: after := by
  have others : ∀ part : KeyedRows, k ∉ part.keys → override part k values = part := by
    intro part absent
    refine (List.map_congr_left ?_).trans (List.map_id part)
    intro entry member
    have other : entry.1 ≠ k := fun same => absent (same ▸ List.mem_map_of_mem member)
    exact if_neg other
  rw [keys, List.map_append, List.map_cons] at distinct
  obtain ⟨_, tail, apart⟩ := List.nodup_append.mp distinct
  have first : k ∉ before.keys := fun member => apart k member k List.mem_cons_self rfl
  have rest : k ∉ after.keys := (List.nodup_cons.mp tail).1
  calc override (before ++ (k, row) :: after) k values
      = override before k values ++ (k, Dict.insertAll row values) :: override after k values := by
        simp [override]
    _ = before ++ (k, Dict.insertAll row values) :: after := by rw [others _ first, others _ rest]

theorem toList_get? (distinct : m.keys.Nodup) :
    (get? m k).toList = (m.filter fun entry => entry.1 = k).map (·.2) := by
  induction m with
  | nil => rfl
  | cons entry rest ih =>
      obtain ⟨new, distinct⟩ := List.nodup_cons.mp distinct
      by_cases same : entry.1 = k
      · have absent : k ∉ keys rest := same ▸ new
        have others : rest.filter (fun entry => entry.1 = k) = [] := by
          refine List.filter_eq_nil_iff.mpr ?_
          intro other member
          have different : other.1 ≠ k := fun h => absent (h ▸ List.mem_map_of_mem member)
          simpa using different
        simp [get?, same, others]
      · have below := ih distinct
        simp only [get?] at below
        simp [get?, same, below]

theorem erase_of_not_mem (h : k ∉ m.keys) : erase m k = m := by
  refine List.filter_eq_self.mpr ?_
  intro entry member
  have other : entry.1 ≠ k := fun same => h (same ▸ List.mem_map_of_mem member)
  simpa using other

theorem length_erase (distinct : m.keys.Nodup) (k : Int) :
    m.length - (erase m k).length = if k ∈ m.keys then 1 else 0 := by
  have hits : m.countP (fun entry => entry.1 = k) = if k ∈ m.keys then 1 else 0 := by
    rw [← distinct.count, keys, List.count, List.countP_map]
    rfl
  have rest : (erase m k).length =
      m.countP fun entry => decide ¬ decide (entry.1 = k) = true := by
    rw [List.countP_eq_length_filter, erase]
    simp
  have split := List.length_eq_countP_add_countP (l := m) fun entry => decide (entry.1 = k)
  omega

end KeyedRows

namespace MemoryStore

/-- The integers of 64 bits with a sign. -/
def Signed64 (k : Int) : Prop := -(2 ^ 63) ≤ k ∧ k < 2 ^ 63

/-- The key of a row, where it has one. -/
def keyOf (primary : String) (row : Row) : Int := (integerKey? (Json.field row primary)).getD 0

def keyedRows (primary : String) (rows : List Row) : KeyedRows :=
  rows.map fun row => (keyOf primary row, row)

theorem integerKey?_integer {k : Int} (signed : Signed64 k) :
    integerKey? (.integer k) = some k := by
  have below : k < ((Nat.pow 2 63 : Nat) : Int) := signed.2
  simp only [integerKey?, Number.toInt64?, if_pos below]

theorem keyOf_eq {primary : String} {row : Row} {k : Int} (signed : Signed64 k)
    (h : Json.field row primary = .integer k) : keyOf primary row = k := by
  rw [keyOf, h, integerKey?_integer signed, Option.getD_some]

/-- The rows of the table have declared columns only, and keys that are different integers, none
above the counter. -/
structure WellKeyed (e : Entity) (primary : String) (t : Table) : Prop where
  declared : ∀ row ∈ t.rows, ∀ column ∈ Dict.keys row, e.hasScalar column = true
  keyed : ∀ row ∈ t.rows, ∃ k, Signed64 k ∧ k ≤ t.lastKey ∧ Json.field row primary = .integer k
  distinct : (keyedRows primary t.rows).keys.Nodup
  counted : 0 ≤ t.lastKey

variable {e : Entity} {primary : String} {t : Table}

theorem equal_integer_self (k : Int) : (Json.integer k).equal (.integer k) = true := by
  simp [Json.equal, Double.same]

/-- A key that is equal to none is none of them. -/
theorem not_mem_of_apart {keys : List Int} {k : Int}
    (apart : ∀ x ∈ keys, (Json.integer x).equal (.integer k) = false) : k ∉ keys := by
  intro member
  have equal := apart k member
  rw [equal_integer_self] at equal
  cases equal

theorem keys_keyedRows (rows : List Row) :
    (keyedRows primary rows).keys = rows.map (keyOf primary) := by
  simp [keyedRows, KeyedRows.keys, Function.comp_def]

theorem mem_keys_keyedRows {rows : List Row} {k : Int} :
    k ∈ (keyedRows primary rows).keys ↔ ∃ row ∈ rows, keyOf primary row = k := by
  rw [keys_keyedRows, List.mem_map]

theorem length_keyedRows (rows : List Row) : (keyedRows primary rows).length = rows.length :=
  List.length_map _

theorem keyedRows_append (rows : List Row) (row : Row) :
    keyedRows primary (rows ++ [row]) = keyedRows primary rows ++ [(keyOf primary row, row)] := by
  simp [keyedRows]

theorem get?_declaredValues {column : String} (h : e.hasScalar column = true) (values : Row) :
    Dict.get? (declaredValues e values) column = Dict.get? values column := by
  induction values with
  | nil => rfl
  | cons entry rest ih =>
      obtain ⟨name, v⟩ := entry
      unfold declaredValues at ih ⊢
      by_cases kept : e.hasScalar name = true
      · simp only [List.filter_cons, kept, ite_true, Dict.get?, ih]
      · have other : name ≠ column := fun same => kept (same ▸ h)
        simp only [List.filter_cons, kept, Bool.false_eq_true, ite_false, Dict.get?, other, ih]

theorem field_declaredValues {column : String} (h : e.hasScalar column = true) (values : Row) :
    Json.field (declaredValues e values) column = Json.field values column := by
  rw [Json.field, Json.field, get?_declaredValues h]

theorem hasScalar_of_mem_declaredValues {column : String} {values : Row}
    (h : column ∈ Dict.keys (declaredValues e values)) : e.hasScalar column = true := by
  obtain ⟨entry, hentry, rfl⟩ := List.mem_map.mp h
  exact (List.mem_filter.mp hentry).2

/-- A patch that does not name a column leaves it as it is. -/
theorem field_override {column : String} {values : Row} (row : Row)
    (other : column ∉ Dict.keys values) :
    Json.field (Dict.insertAll row (declaredValues e values)) column = Json.field row column := by
  have untouched : column ∉ Dict.keys (declaredValues e values) :=
    fun h => other ((List.filter_sublist.map _).subset h)
  rw [Json.field, Json.field, Dict.get?_insertAll_of_not_mem _ untouched]

theorem keyOf_override {values : Row} (row : Row) (other : primary ∉ Dict.keys values) :
    keyOf primary (Dict.insertAll row (declaredValues e values)) = keyOf primary row := by
  rw [keyOf, keyOf, field_override row other]

/-- Rows that are shown alike have the same key. -/
theorem keyOf_eq_of_fullRow_eq (declared : e.hasScalar primary = true) {row row' : Row}
    (h : fullRow e row = fullRow e row') : keyOf primary row = keyOf primary row' := by
  have entries := List.map_inj_left.mp (Json.object.inj h) primary
    (Entity.mem_scalarNames_of_hasScalar declared)
  have same : Json.field row primary = Json.field row' primary := congrArg Prod.snd entries
  rw [keyOf, keyOf, same]

namespace WellKeyed

/-- A row of the table with its key. -/
theorem field_primary (h : WellKeyed e primary t) {row : Row} (hrow : row ∈ t.rows) :
    Json.field row primary = .integer (keyOf primary row) := by
  obtain ⟨k, signed, _, found⟩ := h.keyed row hrow
  rw [found, keyOf_eq signed found]

theorem hasKey_integer (h : WellKeyed e primary t) {row : Row} (hrow : row ∈ t.rows) (k : Int) :
    hasKey primary (.integer k) row = (Json.integer (keyOf primary row)).equal (.integer k) := by
  have found := h.field_primary hrow
  have present : (Json.field row primary).isNull = false := by rw [found]; rfl
  rw [hasKey_eq present, found]

theorem le_lastKey (h : WellKeyed e primary t) {k : Int}
    (member : k ∈ (keyedRows primary t.rows).keys) : k ≤ t.lastKey := by
  obtain ⟨row, hrow, rfl⟩ := mem_keys_keyedRows.mp member
  obtain ⟨k, signed, atMost, found⟩ := h.keyed row hrow
  rwa [keyOf_eq signed found]

/-- The key after the counter is free. -/
theorem next_not_mem (h : WellKeyed e primary t) :
    t.lastKey + 1 ∉ (keyedRows primary t.rows).keys := by
  intro member
  have := h.le_lastKey member
  omega

theorem append (h : WellKeyed e primary t) {row : Row} {k last : Int}
    (declared : ∀ column ∈ Dict.keys row, e.hasScalar column = true) (signed : Signed64 k)
    (found : Json.field row primary = .integer k) (new : k ∉ (keyedRows primary t.rows).keys)
    (grows : t.lastKey ≤ last) (atMost : k ≤ last) :
    WellKeyed e primary ⟨t.rows ++ [row], last⟩ := by
  constructor
  · intro other hother
    cases List.mem_append.mp hother with
    | inl hother => exact h.declared other hother
    | inr hother => exact List.mem_singleton.mp hother ▸ declared
  · intro other hother
    cases List.mem_append.mp hother with
    | inl hother =>
        obtain ⟨own, ownSigned, below, hown⟩ := h.keyed other hother
        exact ⟨own, ownSigned, Int.le_trans below grows, hown⟩
    | inr hother => exact ⟨k, signed, atMost, List.mem_singleton.mp hother ▸ found⟩
  · have appended : (keyedRows primary (t.rows ++ [row])).keys =
        (keyedRows primary t.rows).keys ++ [k] := by
      rw [keyedRows_append, keyOf_eq signed found]
      exact List.map_append
    rw [appended]
    refine List.nodup_append.mpr ⟨h.distinct, List.nodup_singleton _, ?_⟩
    intro x hx y hy same
    rw [List.mem_singleton.mp hy] at same
    exact new (same ▸ hx)
  · exact Int.le_trans h.counted grows

theorem filter (h : WellKeyed e primary t) (p : Row → Bool) :
    WellKeyed e primary { t with rows := t.rows.filter p } where
  declared := fun row hrow => h.declared row (List.mem_of_mem_filter hrow)
  keyed := fun row hrow => h.keyed row (List.mem_of_mem_filter hrow)
  distinct := by
    refine h.distinct.sublist ?_
    exact (List.filter_sublist.map _).map _
  counted := h.counted

/-- A row that gets the key after the counter. -/
theorem append_counted (h : WellKeyed e primary t) {row : Row}
    (declared : ∀ column ∈ Dict.keys row, e.hasScalar column = true)
    (hprimary : e.hasScalar primary = true) (room : t.lastKey + 1 < 2 ^ 63) :
    WellKeyed e primary
      ⟨t.rows ++ [Dict.insert row primary (.integer (t.lastKey + 1))], t.lastKey + 1⟩ := by
  have signed : Signed64 (t.lastKey + 1) := ⟨by have := h.counted; omega, room⟩
  refine h.append ?_ signed (by rw [Json.field_insert, if_pos rfl]) h.next_not_mem (by omega)
    (Int.le_refl _)
  intro column hcolumn
  rw [Dict.keys_insert] at hcolumn
  split at hcolumn
  · exact declared column hcolumn
  · cases List.mem_append.mp hcolumn with
    | inl old => exact declared column old
    | inr key => exact List.mem_singleton.mp key ▸ hprimary

/-- Writing into a row leaves the table well keyed if it leaves the key alone. -/
theorem override (h : WellKeyed e primary t) {before after : List Row} {row : Row}
    (split : t.rows = before ++ row :: after) {values : Row} (other : primary ∉ Dict.keys values) :
    WellKeyed e primary { t with
      rows := before ++ Dict.insertAll row (declaredValues e values) :: after } := by
  have member : row ∈ t.rows := split ▸ List.mem_append_right _ List.mem_cons_self
  have same := field_override (e := e) row other
  have stored : ∀ other, other ∈ before ++ Dict.insertAll row (declaredValues e values) :: after →
      other = Dict.insertAll row (declaredValues e values) ∨ other ∈ t.rows := by
    intro other hother
    rw [split]
    simp only [List.mem_append, List.mem_cons] at hother ⊢
    tauto
  constructor
  · intro written hwritten column hcolumn
    cases stored written hwritten with
    | inl own =>
        rw [own, Dict.mem_keys_insertAll] at hcolumn
        cases hcolumn with
        | inl new => exact hasScalar_of_mem_declaredValues new
        | inr old => exact h.declared row member column old
    | inr old => exact h.declared written old column hcolumn
  · intro written hwritten
    cases stored written hwritten with
    | inl own =>
        rw [own, same]
        exact h.keyed row member
    | inr old => exact h.keyed written old
  · have distinct := h.distinct
    rw [split] at distinct
    simpa [keyedRows, KeyedRows.keys, keyOf, same] using distinct
  · exact h.counted

/-- The first row that has the key has the first key that is equal to it. -/
theorem find?_keys (h : WellKeyed e primary t) {before after : List Row} {row : Row} {k : Int}
    (split : t.rows = before ++ row :: after)
    (misses : ∀ other ∈ before, hasKey primary (.integer k) other = false)
    (hit : hasKey primary (.integer k) row = true) :
    (keyedRows primary t.rows).keys.find? (fun x => (Json.integer x).equal (.integer k)) =
      some (keyOf primary row) := by
  have member : row ∈ t.rows := split ▸ List.mem_append_right _ List.mem_cons_self
  rw [List.find?_eq_some_iff_append, ← h.hasKey_integer member]
  refine ⟨hit, before.map (keyOf primary), after.map (keyOf primary), ?_, ?_⟩
  · rw [keys_keyedRows, split, List.map_append, List.map_cons]
  · intro x hx
    obtain ⟨other, hother, rfl⟩ := List.mem_map.mp hx
    have stored : other ∈ t.rows := split ▸ List.mem_append_left _ hother
    rw [← h.hasKey_integer stored, misses other hother]
    rfl

theorem keyedRows_override (h : WellKeyed e primary t) {before after : List Row} {row : Row}
    (split : t.rows = before ++ row :: after) {k : Int} (own : keyOf primary row = k)
    {values : Row} (other : primary ∉ Dict.keys values) :
    keyedRows primary (before ++ Dict.insertAll row (declaredValues e values) :: after) =
      (keyedRows primary t.rows).override k (declaredValues e values) := by
  have distinct := h.distinct
  have rows : keyedRows primary t.rows =
      keyedRows primary before ++ (k, row) :: keyedRows primary after := by
    simp [keyedRows, split, own]
  rw [rows] at distinct ⊢
  rw [KeyedRows.override_append_cons distinct]
  simp [keyedRows, keyOf_override row other, ← own]

end WellKeyed

/-- The outcomes of adding a row whose key is missing or supplied as an integer. -/
theorem addRow_cases (h : WellKeyed e primary t) (hprimary : e.primaryField = some primary)
    (row : Row) (key : (Json.field row primary).isNull = true ∧ t.lastKey + 1 < 2 ^ 63 ∨
      ∃ k, Signed64 k ∧ Json.field row primary = .integer k) :
    ((Json.field row primary).isNull = true ∧ t.lastKey + 1 < 2 ^ 63 ∧
      addRow e t row = .ok (Dict.insert row primary (.integer (t.lastKey + 1)),
        ⟨t.rows ++ [Dict.insert row primary (.integer (t.lastKey + 1))], t.lastKey + 1⟩)) ∨
    ∃ k, Signed64 k ∧ Json.field row primary = .integer k ∧
      ((∃ x ∈ (keyedRows primary t.rows).keys, (Json.integer x).equal (.integer k) = true) ∧
          addRow e t row = .error
            (.storage s!"duplicate primary key {(Json.integer k).text} for {e.name}") ∨
        (∀ x ∈ (keyedRows primary t.rows).keys, (Json.integer x).equal (.integer k) = false) ∧
          addRow e t row = .ok (row, ⟨t.rows ++ [row], max t.lastKey k⟩)) := by
  cases key with
  | inl missing =>
      obtain ⟨null, room⟩ := missing
      have next : successor t.lastKey = t.lastKey + 1 := if_pos room
      refine .inl ⟨null, room, ?_⟩
      simp only [addRow, hprimary, null, ite_true, next]
  | inr supplied =>
      obtain ⟨k, signed, found⟩ := supplied
      refine .inr ⟨k, signed, found, ?_⟩
      have present : (Json.integer k).isNull = false := rfl
      cases taken : t.rows.any (hasKey primary (.integer k)) with
      | true =>
          obtain ⟨other, hother, hit⟩ := List.any_eq_true.mp taken
          rw [h.hasKey_integer hother] at hit
          refine .inl ⟨⟨_, mem_keys_keyedRows.mpr ⟨other, hother, rfl⟩, hit⟩, ?_⟩
          simp [addRow, hprimary, found, present, taken]
      | false =>
          refine .inr ⟨?_, ?_⟩
          · intro x hx
            obtain ⟨other, hother, rfl⟩ := mem_keys_keyedRows.mp hx
            rw [← h.hasKey_integer hother]
            exact Bool.eq_false_iff.mpr (List.any_eq_false.mp taken other hother)
          · simp [addRow, hprimary, found, present, taken, integerKey?_integer signed]

end MemoryStore
end EntityGraph
