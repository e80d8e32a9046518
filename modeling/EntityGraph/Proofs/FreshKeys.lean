import Mathlib.Data.List.Infix
import EntityGraph.Proofs.KeyedRows

/-!
Keys that are counted up over a run of calls. The counter of a table is never below a key that the
table has held, whether the row is still there or not: a row that is added raises it to its key, and
nothing lowers it. A key that is counted up is therefore above all of them.
-/

namespace EntityGraph
namespace MemoryStore

/-- Every row has an integer key, and none is above the counter. -/
def Counted (primary : String) (t : Table) : Prop :=
  ∀ row ∈ t.rows, ∃ k ≤ t.lastKey, Json.field row primary = .integer k

/-- A key that is supplied is an integer of 64 bits, and no patch writes the key. -/
def Call.KeepsKeys (primary : String) : Call → Prop
  | .insert _ row => (Json.field row primary).isNull = true ∨
      ∃ k, Signed64 k ∧ Json.field row primary = .integer k
  | .patch _ _ values => primary ∉ Dict.keys values
  | .delete _ _ => True

/-- The calls to the entity keep its keys, and the counter never reaches its end. -/
structure Steady (r : Registry) (name primary : String) (calls : List Call) : Prop where
  keeps : ∀ call ∈ calls, call.entity = name → call.KeepsKeys primary
  room : ∀ done, done <+: calls → ((run r [] done).table name).lastKey < 2 ^ 63 - 1

/-- The table held the row after some of the calls. -/
def Held (r : Registry) (name : String) (calls : List Call) (row : Row) : Prop :=
  ∃ done, done <+: calls ∧ row ∈ ((run r [] done).table name).rows

/-- The insert succeeds, and the row that it adds has the key. -/
def Assigns (r : Registry) (s : MemoryStore) (name primary : String) (values : Row) (k : Int) :
    Prop :=
  ∃ shown after row, insert r s name values = .ok (shown, after) ∧
    (after.table name).rows = (s.table name).rows ++ [row] ∧ Json.field row primary = .integer k

variable {r : Registry} {s : MemoryStore} {name primary : String} {e : Entity} {t : Table}

theorem successor_eq {n : Int} (room : n < 2 ^ 63 - 1) : successor n = n + 1 := by
  have below : n + 1 < 2 ^ 63 := by omega
  exact if_pos below

/-- A column that the entity does not declare is dropped. -/
theorem field_declaredValues_cases (e : Entity) (column : String) (values : Row) :
    Json.field (declaredValues e values) column = Json.field values column ∨
      Json.field (declaredValues e values) column = .null := by
  by_cases declared : e.hasScalar column = true
  · exact .inl (field_declaredValues declared values)
  · have dropped : column ∉ Dict.keys (declaredValues e values) :=
      mt hasScalar_of_mem_declaredValues declared
    rw [Json.field, (Dict.get?_eq_none_iff _ _).mpr dropped]
    exact .inr rfl

namespace Counted

theorem append (h : Counted primary t) {row : Row} {k last : Int}
    (found : Json.field row primary = .integer k) (atMost : k ≤ last) (grows : t.lastKey ≤ last) :
    Counted primary ⟨t.rows ++ [row], last⟩ := by
  intro other hother
  obtain hother | hother := List.mem_append.mp hother
  · obtain ⟨own, below, hown⟩ := h other hother
    exact ⟨own, Int.le_trans below grows, hown⟩
  · obtain rfl := List.mem_singleton.mp hother
    exact ⟨k, atMost, found⟩

/-- Adding a row keeps the counter above the keys, and does not lower it. -/
theorem addRow (h : Counted primary t) (hprimary : e.primaryField = some primary)
    (room : t.lastKey < 2 ^ 63 - 1) {row added : Row} {after : Table}
    (supplied : (Json.field row primary).isNull = true ∨
      ∃ k, Signed64 k ∧ Json.field row primary = .integer k)
    (done : MemoryStore.addRow e t row = .ok (added, after)) :
    Counted primary after ∧ t.lastKey ≤ after.lastKey := by
  simp only [MemoryStore.addRow, hprimary] at done
  obtain null | ⟨k, signed, found⟩ := supplied
  · rw [if_pos null, successor_eq room] at done
    cases done
    have grows : t.lastKey ≤ t.lastKey + 1 := by omega
    exact ⟨h.append (by rw [Json.field_insert, if_pos rfl]) (Int.le_refl _) grows, grows⟩
  · have present : ¬ (Json.integer k).isNull = true := Bool.false_ne_true
    rw [found, if_neg present] at done
    split at done
    · cases done
    · rw [integerKey?_integer signed] at done
      cases done
      exact ⟨h.append found (le_max_right _ _) (le_max_left _ _), le_max_left _ _⟩

/-- Patching a row leaves its key. -/
theorem patchFirst (h : Counted primary t) {isPatched : Row → Bool} {values found : Row}
    {rows : List Row} (keeps : primary ∉ Dict.keys values)
    (patched : MemoryStore.patchFirst isPatched (declaredValues e values) t.rows =
      some (found, rows)) : Counted primary { t with rows } := by
  obtain ⟨before, row, after, split, _, _, rfl, rfl⟩ := patchFirst_eq_some patched
  intro other hother
  have stored : other = Dict.insertAll row (declaredValues e values) ∨ other ∈ t.rows := by
    rw [split]
    simp only [List.mem_append, List.mem_cons] at hother ⊢
    tauto
  obtain rfl | old := stored
  · rw [field_override row keeps]
    exact h row (split ▸ List.mem_append_right _ List.mem_cons_self)
  · exact h other old

theorem filter (h : Counted primary t) (p : Row → Bool) :
    Counted primary { t with rows := t.rows.filter p } :=
  fun row hrow => h row (List.mem_of_mem_filter hrow)

end Counted

/-- One call keeps the counter above the keys, and does not lower it. -/
theorem counted_apply (h : Counted primary (s.table name)) (registered : r.get? name = some e)
    (hprimary : e.primaryField = some primary) {call : Call} (own : call.entity = name)
    (keeps : call.KeepsKeys primary) (room : (s.table name).lastKey < 2 ^ 63 - 1) :
    Counted primary ((apply r s call).table name) ∧
      (s.table name).lastKey ≤ ((apply r s call).table name).lastKey := by
  cases call with
  | insert entity values =>
      obtain rfl : entity = name := own
      rw [table_apply_insert registered]
      have supplied : (Json.field (declaredValues e values) primary).isNull = true ∨
          ∃ k, Signed64 k ∧ Json.field (declaredValues e values) primary = .integer k := by
        obtain same | null := field_declaredValues_cases e primary values
        · rw [same]
          exact keeps
        · rw [null]
          exact .inl rfl
      cases added : addRow e (s.table entity) (declaredValues e values) with
      | error reason => exact ⟨h, Int.le_refl _⟩
      | ok stored => exact h.addRow hprimary room supplied added
  | patch entity key values =>
      obtain rfl : entity = name := own
      rw [table_apply_patch registered hprimary]
      cases patched : patchFirst (hasKey primary key) (declaredValues e values)
          (s.table entity).rows with
      | none => exact ⟨h, Int.le_refl _⟩
      | some changed => exact ⟨h.patchFirst keeps patched, Int.le_refl _⟩
  | delete entity key =>
      obtain rfl : entity = name := own
      rw [table_apply_delete registered hprimary]
      exact ⟨h.filter _, Int.le_refl _⟩

theorem run_append_singleton (s : MemoryStore) (calls : List Call) (call : Call) :
    run r s (calls ++ [call]) = apply r (run r s calls) call := by
  simp [run]

theorem Steady.of_prefix {calls done : List Call} (steady : Steady r name primary calls)
    (first : done <+: calls) : Steady r name primary done where
  keeps := fun call member => steady.keeps call (first.subset member)
  room := fun before earlier => steady.room before (earlier.trans first)

/-- In every state of a steady run the counter is above every key that the table has held. -/
theorem counted_run (registered : r.get? name = some e) (hprimary : e.primaryField = some primary)
    {calls : List Call} (steady : Steady r name primary calls) :
    Counted primary ((run r [] calls).table name) ∧ ∀ done, done <+: calls →
      ((run r [] done).table name).lastKey ≤ ((run r [] calls).table name).lastKey := by
  induction calls using List.reverseRecOn with
  | nil =>
      refine ⟨fun row hrow => absurd hrow List.not_mem_nil, ?_⟩
      intro done first
      rw [List.prefix_nil.mp first]
  | append_singleton calls call ih =>
      have first : calls <+: calls ++ [call] := List.prefix_append _ _
      obtain ⟨counted, below⟩ := ih (steady.of_prefix first)
      have step : Counted primary ((run r [] (calls ++ [call])).table name) ∧
          ((run r [] calls).table name).lastKey ≤
            ((run r [] (calls ++ [call])).table name).lastKey := by
        rw [run_append_singleton]
        by_cases own : call.entity = name
        · have keeps := steady.keeps call (List.mem_append_right _ List.mem_cons_self) own
          exact counted_apply counted registered hprimary own keeps (steady.room calls first)
        · rw [table_apply_of_ne own]
          exact ⟨counted, Int.le_refl _⟩
      refine ⟨step.1, ?_⟩
      intro done first
      obtain rfl | first := List.prefix_concat_iff.mp first
      · exact Int.le_refl _
      · exact Int.le_trans (below done first) step.2

theorem held_le_lastKey (registered : r.get? name = some e)
    (hprimary : e.primaryField = some primary) {calls : List Call}
    (steady : Steady r name primary calls) {row : Row} (held : Held r name calls row) :
    ∃ k ≤ ((run r [] calls).table name).lastKey, Json.field row primary = .integer k := by
  obtain ⟨done, first, member⟩ := held
  have counted := counted_run registered hprimary (steady.of_prefix first)
  obtain ⟨k, below, found⟩ := counted.1 row member
  exact ⟨k, Int.le_trans below ((counted_run registered hprimary steady).2 done first), found⟩

theorem insert_of_addRow (registered : r.get? name = some e) {values row : Row}
    (added : addRow e (s.table name) (declaredValues e values) = .ok (row, t)) :
    insert r s name values = .ok (fullRow e row, Dict.insert s name t) := by
  simp only [insert, registered, added]
  rfl

/-- An insert without a key succeeds, with the key that is counted up. -/
theorem assigns_successor (registered : r.get? name = some e)
    (hprimary : e.primaryField = some primary) {values : Row}
    (missing : (Json.field (declaredValues e values) primary).isNull = true) :
    Assigns r s name primary values (successor (s.table name).lastKey) := by
  have added : addRow e (s.table name) (declaredValues e values) =
      .ok (Dict.insert (declaredValues e values) primary
          (.integer (successor (s.table name).lastKey)),
        ⟨(s.table name).rows ++ [Dict.insert (declaredValues e values) primary
          (.integer (successor (s.table name).lastKey))], successor (s.table name).lastKey⟩) := by
    simp only [addRow, hprimary, missing, if_true]
  refine ⟨_, _, Dict.insert (declaredValues e values) primary
    (.integer (successor (s.table name).lastKey)), insert_of_addRow registered added, ?_, ?_⟩
  · rw [table_insert, if_pos rfl]
  · rw [Json.field_insert, if_pos rfl]

theorem Assigns.unique {values : Row} {k k' : Int} (h : Assigns r s name primary values k)
    (h' : Assigns r s name primary values k') : k = k' := by
  obtain ⟨shown, after, row, inserted, added, found⟩ := h
  obtain ⟨shown', after', row', inserted', added', found'⟩ := h'
  cases inserted.symm.trans inserted'
  obtain rfl := List.singleton_inj.mp (List.append_cancel_left (added.symm.trans added'))
  exact Number.int.inj (Json.number.inj (found.symm.trans found'))

/-- The row that is given the key is held from then on. -/
theorem Assigns.held {done : List Call} {values : Row} {k : Int}
    (h : Assigns r (run r [] done) name primary values k) (between : List Call) :
    ∃ row, Held r name (done ++ .insert name values :: between) row ∧
      Json.field row primary = .integer k := by
  obtain ⟨shown, after, row, inserted, added, found⟩ := h
  have stored : run r [] (done ++ [.insert name values]) = after := by
    rw [run_append_singleton, apply, inserted]
  refine ⟨row, ⟨done ++ [.insert name values], ⟨between, by simp⟩, ?_⟩, found⟩
  rw [stored, added]
  exact List.mem_append_right _ (List.mem_singleton_self _)

/-- Keys are counted up past all that the table has held. An insert is without a key when the
values that are kept of it have none. -/
structure FreshKeys (r : Registry) (e : Entity) (name primary : String) (calls : List Call) :
    Prop where
  above : ∀ done values rest, calls = done ++ .insert name values :: rest →
    (Json.field (declaredValues e values) primary).isNull = true →
    ∃ k, Assigns r (run r [] done) name primary values k ∧ ∀ row, Held r name done row →
      ∃ held < k, Json.field row primary = .integer held
  rising : ∀ done values between values' rest,
    calls = done ++ .insert name values :: between ++ .insert name values' :: rest →
    (Json.field (declaredValues e values') primary).isNull = true →
    ∀ k k', Assigns r (run r [] done) name primary values k →
      Assigns r (run r [] (done ++ .insert name values :: between)) name primary values' k' →
        k < k'

/-- In a steady run from the empty store every key that is counted up is fresh. -/
theorem freshKeys_run (registered : r.get? name = some e)
    (hprimary : e.primaryField = some primary) {calls : List Call}
    (steady : Steady r name primary calls) : FreshKeys r e name primary calls := by
  have above : ∀ done values rest, calls = done ++ .insert name values :: rest →
      (Json.field (declaredValues e values) primary).isNull = true →
      ∃ k, Assigns r (run r [] done) name primary values k ∧ ∀ row, Held r name done row →
        ∃ held < k, Json.field row primary = .integer held := by
    intro done values rest split missing
    have first : done <+: calls := ⟨_, split.symm⟩
    have assigned : Assigns r (run r [] done) name primary values _ :=
      assigns_successor registered hprimary missing
    rw [successor_eq (steady.room done first)] at assigned
    refine ⟨_, assigned, ?_⟩
    intro row held
    obtain ⟨k, below, found⟩ := held_le_lastKey registered hprimary (steady.of_prefix first) held
    exact ⟨k, Int.lt_add_one_of_le below, found⟩
  refine ⟨above, ?_⟩
  intro done values between values' rest split missing' k k' assigned assigned'
  obtain ⟨next, given, past⟩ := above _ values' rest split missing'
  obtain ⟨row, held, found⟩ := assigned.held between
  obtain ⟨own, below, found'⟩ := past row held
  obtain rfl := given.unique assigned'
  cases found.symm.trans found'
  exact below

end MemoryStore

namespace Catalog
open MemoryStore

/-- Keys are supplied that are larger, smaller and taken, and the largest is deleted before the
next key is counted up. -/
def overtaking : List MemoryStore.Call :=
  [.insert "Category" [("id", .integer 3)], .insert "Category" [("name", .string "Web")],
   .insert "Category" [("id", .integer (-5))], .insert "Category" [("id", .integer 10)],
   .delete "Category" (.integer 10), .insert "Category" [("id", .integer 3)],
   .patch "Category" (.integer 4) [("name", .string "Systems")], .insert "Category" []]

/-- The two keys that are counted up are 4 and 11. -/
theorem freshKeys_overtaking :
    registry.get? "Category" = some category ∧ category.primaryField = some "id" ∧
    Steady registry "Category" "id" overtaking ∧
    FreshKeys registry category "Category" "id" overtaking ∧
    ((run registry [] overtaking).table "Category").rows.map (keyOf "id") = [3, 4, -5, 11] := by
  have signed : ∀ k ∈ [3, -5, 10], Signed64 k := by
    unfold Signed64
    simp
  have steady : Steady registry "Category" "id" overtaking := by
    constructor
    · intro call member _
      simp only [overtaking, List.mem_cons, List.not_mem_nil, or_false] at member
      obtain rfl | rfl | rfl | rfl | rfl | rfl | rfl | rfl := member
      · exact .inr ⟨3, signed 3 (by simp), rfl⟩
      · exact .inl rfl
      · exact .inr ⟨-5, signed (-5) (by simp), rfl⟩
      · exact .inr ⟨10, signed 10 (by simp), rfl⟩
      · trivial
      · exact .inr ⟨3, signed 3 (by simp), rfl⟩
      · exact (by decide : "id" ∉ ["name"])
      · exact .inl rfl
    · intro done first
      have room : ∀ done ∈ overtaking.inits,
          ((run registry [] done).table "Category").lastKey < 2 ^ 63 - 1 := by decide +kernel
      exact room done ((List.mem_inits _ _).mpr first)
  exact ⟨rfl, rfl, steady, freshKeys_run rfl rfl steady, by decide +kernel⟩

end Catalog
end EntityGraph
