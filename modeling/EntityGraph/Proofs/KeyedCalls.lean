import EntityGraph.Proofs.KeyedRows
import EntityGraph.Proofs.Rounding
import EntityGraph.Proofs.Stitching

/-!
What the calls to a table with integer keys do to its rows by their keys, and what they answer.
A call does to the table what it says of the map exactly when its key is told apart from the
keys that are stored: keys are compared as doubles, and of these one may stand for several keys.
-/

namespace EntityGraph
namespace MemoryStore

/-- What a call answers. -/
inductive Answer where
  | inserted (row : Json)
  | patched (row : Option Json)
  | deleted (count : Nat)

def answer (r : Registry) (s : MemoryStore) : Call → Except RequestError Answer
  | .insert entity row => (insert r s entity row).map fun done => .inserted done.1
  | .patch entity key values => (patch r s entity key values).map fun done => .patched done.1
  | .delete entity key => (delete r s entity key).map fun done => .deleted done.1

/-- What a call does to a map of rows with their keys, and what it answers. -/
inductive MapStep (e : Entity) (primary : String) (m : KeyedRows) :
    Call → Except RequestError Answer → KeyedRows → Prop
  | refused {name : String} {row : Row} {k : Int} :
      Json.field row primary = .integer k → k ∈ m.keys →
      MapStep e primary m (.insert name row)
        (.error (.storage s!"duplicate primary key {(Json.integer k).text} for {e.name}")) m
  | supplied {name : String} {row : Row} {k : Int} :
      Json.field row primary = .integer k → k ∉ m.keys →
      MapStep e primary m (.insert name row)
        (.ok (.inserted (fullRow e (declaredValues e row)))) (m ++ [(k, declaredValues e row)])
  | counted {name : String} {row : Row} {k : Int} :
      (Json.field row primary).isNull = true → k ∉ m.keys →
      MapStep e primary m (.insert name row)
        (.ok (.inserted (fullRow e (Dict.insert (declaredValues e row) primary (.integer k)))))
        (m ++ [(k, Dict.insert (declaredValues e row) primary (.integer k))])
  | patched {name : String} {values row : Row} {k : Int} :
      m.get? k = some row →
      MapStep e primary m (.patch name (.integer k) values)
        (.ok (.patched (some
          (fullRow e (Dict.insertAll row (declaredValues e values))))))
        (m.override k (declaredValues e values))
  | unpatched {name : String} {values : Row} {k : Int} :
      m.get? k = none →
      MapStep e primary m (.patch name (.integer k) values) (.ok (.patched none)) m
  | deleted {name : String} {k : Int} :
      k ∈ m.keys →
      MapStep e primary m (.delete name (.integer k)) (.ok (.deleted 1)) (m.erase k)
  | undeleted {name : String} {k : Int} :
      k ∉ m.keys →
      MapStep e primary m (.delete name (.integer k)) (.ok (.deleted 0)) m

namespace MapStep

variable {e : Entity} {primary name : String} {m after : KeyedRows}

theorem mem_of_refused {row : Row} {reason : RequestError}
    (step : MapStep e primary m (.insert name row) (.error reason) after) :
    ∃ k, Json.field row primary = .integer k ∧ k ∈ m.keys := by
  cases step with
  | refused given stored => exact ⟨_, given, stored⟩

theorem get?_of_patched {k : Int} {values : Row} {shown : Json}
    (step : MapStep e primary m (.patch name (.integer k) values)
      (.ok (.patched (some shown))) after) :
    ∃ row, m.get? k = some row ∧
      shown = fullRow e (Dict.insertAll row (declaredValues e values)) := by
  cases step with
  | patched found => exact ⟨_, found, rfl⟩

/-- Deleting leaves the rows under other keys. -/
theorem mem_of_deleted {k x : Int} {done : Except RequestError Answer}
    (step : MapStep e primary m (.delete name (.integer k)) done after) (stored : x ∈ m.keys)
    (other : x ≠ k) : x ∈ after.keys := by
  cases step with
  | deleted =>
      obtain ⟨entry, hentry, rfl⟩ := List.mem_map.mp stored
      exact List.mem_map_of_mem (List.mem_filter.mpr ⟨hentry, by simpa using other⟩)
  | undeleted => exact stored

end MapStep

namespace Call

/-- The key that the caller supplies. -/
def key (primary : String) : Call → Json
  | .insert _ row => Json.field row primary
  | .patch _ key _ | .delete _ key => key

/-- Supplied keys are integers of 64 bits, a patch leaves the key alone, and where a key is
counted up there is one left. -/
def Keyed (primary : String) (t : Table) (call : Call) : Prop :=
  match call with
  | .insert _ row => (Json.field row primary).isNull = true ∧ t.lastKey + 1 < 2 ^ 63 ∨
      ∃ k, Signed64 k ∧ Json.field row primary = .integer k
  | .patch _ key values => (∃ k, Signed64 k ∧ key = .integer k) ∧ primary ∉ Dict.keys values
  | .delete _ key => ∃ k, Signed64 k ∧ key = .integer k

/-- Comparing as doubles takes no stored key for the key of the call, or none that matters: a
key is refused rightly if it is stored itself, and a patch is for the first key that is equal. -/
def ToldApart (keys : List Int) (k : Int) : Call → Prop
  | .insert _ _ => ∀ x ∈ keys, (Json.integer x).equal (.integer k) = true → k ∈ keys
  | .patch _ _ _ =>
      ∀ x, keys.find? (fun x => (Json.integer x).equal (.integer k)) = some x → x = k
  | .delete _ _ => ∀ x ∈ keys, (Json.integer x).equal (.integer k) = true → x = k

end Call

variable {e : Entity} {primary : String}

/-- Keys of at most 53 bits and a sign are told apart from all others. -/
theorem Call.toldApart_of_natAbs_lt (call : Call) (keys : List Int) {k : Int}
    (small : k.natAbs < 2 ^ 53) : call.ToldApart keys k := by
  have apart : ∀ x, (Json.integer x).equal (.integer k) = true → x = k :=
    fun x equal => Double.eq_of_same_ofInt small equal
  cases call with
  | insert name row => exact fun x hx equal => apart x equal ▸ hx
  | patch name key values =>
      intro x found
      have equal := List.find?_some found
      exact apart x equal
  | delete name key => exact fun x _ equal => apart x equal

section Calls

variable {r : Registry} {s : MemoryStore} {name : String}

theorem answer_insert (registered : r.get? name = some e) (row : Row) :
    answer r s (.insert name row) =
      (addRow e (s.table name) (declaredValues e row)).map fun stored =>
        .inserted (fullRow e stored.1) := by
  simp only [answer, insert, registered]
  cases addRow e (s.table name) (declaredValues e row) <;> rfl

theorem answer_patch (registered : r.get? name = some e)
    (hprimary : e.primaryField = some primary) (key : Json) (values : Row) :
    answer r s (.patch name key values) = .ok (.patched
      ((patchFirst (hasKey primary key) (declaredValues e values) (s.table name).rows).map
        fun done => fullRow e done.1)) := by
  simp only [answer, patch, primaryOf, registered, hprimary, bind, Except.bind]
  cases patchFirst (hasKey primary key) (declaredValues e values) (s.table name).rows <;> rfl

theorem answer_delete (registered : r.get? name = some e)
    (hprimary : e.primaryField = some primary) (key : Json) :
    answer r s (.delete name key) = .ok (.deleted ((s.table name).rows.length -
      ((s.table name).rows.filter fun row => !hasKey primary key row).length)) := by
  simp only [answer, delete, primaryOf, registered, hprimary, bind, Except.bind]
  rfl

/-- The rows of an entity by their keys. -/
def keyed (s : MemoryStore) (name primary : String) : KeyedRows :=
  keyedRows primary (s.table name).rows

/-- The call does to the rows by their keys what it says of a map. -/
def StepsAsMap (r : Registry) (s : MemoryStore) (name : String) (e : Entity) (primary : String)
    (call : Call) : Prop :=
  MapStep e primary (s.keyed name primary) call (answer r s call)
    ((apply r s call).keyed name primary)

private theorem insert_keyed (h : WellKeyed e primary (s.table name))
    (registered : r.get? name = some e) (hprimary : e.primaryField = some primary)
    (declared : e.hasScalar primary = true) {row : Row}
    (keyed : (Call.insert name row).Keyed primary (s.table name)) :
    WellKeyed e primary ((apply r s (.insert name row)).table name) ∧
      (StepsAsMap r s name e primary (.insert name row) ↔
        ∀ k, Json.field row primary = .integer k →
          (Call.insert name row).ToldApart (s.keyed name primary).keys k) := by
  have own : ∀ column ∈ Dict.keys (declaredValues e row), e.hasScalar column = true :=
    fun column => hasScalar_of_mem_declaredValues
  have after := table_apply_insert (s := s) registered row
  have answered := answer_insert (s := s) registered row
  have sameKey := field_declaredValues declared row
  rw [StepsAsMap, MemoryStore.keyed, MemoryStore.keyed]
  obtain ⟨null, room, added⟩ | ⟨k, signed, found, ⟨taken, added⟩ | ⟨free, added⟩⟩ :=
    addRow_cases h hprimary (declaredValues e row) (sameKey ▸ keyed)
  · -- The key is counted up, past all that are there.
    rw [added] at after answered
    rw [after, answered]
    have signed : Signed64 ((s.table name).lastKey + 1) := ⟨by have := h.counted; omega, room⟩
    have stored : Json.field (Dict.insert (declaredValues e row) primary
        (.integer ((s.table name).lastKey + 1))) primary =
        .integer ((s.table name).lastKey + 1) := by
      rw [Json.field_insert, if_pos rfl]
    refine ⟨h.append_counted own declared room, iff_of_true ?_ ?_⟩
    · rw [keyedRows_append, keyOf_eq signed stored]
      exact .counted (sameKey ▸ null) h.next_not_mem
    · intro k given
      rw [sameKey, given] at null
      cases null
  · -- The key is refused, rightly if it is stored itself.
    rw [added] at after answered
    rw [after, answered]
    have given : Json.field row primary = .integer k := sameKey ▸ found
    refine ⟨h, ?_, ?_⟩
    · intro step k' given' x hx _
      obtain ⟨asked, given'', stored⟩ := step.mem_of_refused
      cases given'.symm.trans given''
      exact stored
    · intro apart
      obtain ⟨x, hx, equal⟩ := taken
      exact .refused given (apart k given x hx equal)
  · -- The key is free, so it is not stored either.
    rw [added] at after answered
    rw [after, answered]
    have given : Json.field row primary = .integer k := sameKey ▸ found
    have new := not_mem_of_apart free
    refine ⟨h.append own signed found new (le_max_left _ _) (le_max_right _ _),
      iff_of_true ?_ ?_⟩
    · rw [keyedRows_append, keyOf_eq signed found]
      exact .supplied given new
    · intro k' given' x hx equal
      cases given.symm.trans given'
      rw [free x hx] at equal
      cases equal

private theorem patch_keyed (h : WellKeyed e primary (s.table name))
    (registered : r.get? name = some e) (hprimary : e.primaryField = some primary)
    (declared : e.hasScalar primary = true) {k : Int} {values : Row}
    (other : primary ∉ Dict.keys values) :
    WellKeyed e primary ((apply r s (.patch name (.integer k) values)).table name) ∧
      (StepsAsMap r s name e primary (.patch name (.integer k) values) ↔
        (Call.patch name (.integer k) values).ToldApart (s.keyed name primary).keys k) := by
  have after := table_apply_patch (s := s) registered hprimary (.integer k) values
  have answered := answer_patch (s := s) registered hprimary (.integer k) values
  rw [StepsAsMap, MemoryStore.keyed, MemoryStore.keyed]
  cases patched : patchFirst (hasKey primary (.integer k)) (declaredValues e values)
      (s.table name).rows with
  | none =>
      rw [patched] at after answered
      rw [after, answered]
      have apart : ∀ x ∈ (keyedRows primary (s.table name).rows).keys,
          (Json.integer x).equal (.integer k) = false := by
        intro x hx
        obtain ⟨row, hrow, rfl⟩ := mem_keys_keyedRows.mp hx
        rw [← h.hasKey_integer hrow]
        exact patchFirst_eq_none patched row hrow
      refine ⟨h, iff_of_true (.unpatched ?_) ?_⟩
      · exact KeyedRows.get?_eq_none_iff.mpr (not_mem_of_apart apart)
      · intro x found
        have equal := List.find?_some found
        rw [apart x (List.mem_of_find?_eq_some found)] at equal
        cases equal
  | some done =>
      obtain ⟨found, changed⟩ := done
      rw [patched] at after answered
      rw [after, answered]
      obtain ⟨before, row, rest, split, misses, hit, rfl, rfl⟩ := patchFirst_eq_some patched
      have member : row ∈ (s.table name).rows := split ▸ List.mem_append_right _ List.mem_cons_self
      have first := h.find?_keys split misses hit
      refine ⟨h.override split other, ?_, ?_⟩
      · intro step x found
        cases first.symm.trans found
        obtain ⟨row', stored, shown⟩ := step.get?_of_patched
        obtain ⟨own, hown, entry⟩ :=
          List.mem_map.mp ((KeyedRows.get?_eq_some_iff h.distinct).mp stored)
        cases entry
        have keys := keyOf_eq_of_fullRow_eq declared shown
        rwa [keyOf_override row other, keyOf_override row' other] at keys
      · intro apart
        have own : keyOf primary row = k := apart _ first
        rw [h.keyedRows_override split own other]
        refine .patched ((KeyedRows.get?_eq_some_iff h.distinct).mpr ?_)
        exact List.mem_map.mpr ⟨row, member, by rw [own]⟩

private theorem delete_keyed (h : WellKeyed e primary (s.table name))
    (registered : r.get? name = some e) (hprimary : e.primaryField = some primary) (k : Int) :
    WellKeyed e primary ((apply r s (.delete name (.integer k))).table name) ∧
      (StepsAsMap r s name e primary (.delete name (.integer k)) ↔
        (Call.delete name (.integer k)).ToldApart (s.keyed name primary).keys k) := by
  have after := table_apply_delete (s := s) registered hprimary (.integer k)
  have answered := answer_delete (s := s) registered hprimary (.integer k)
  rw [StepsAsMap, MemoryStore.keyed, MemoryStore.keyed, after, answered]
  refine ⟨h.filter _, ?_, ?_⟩
  · intro step x hx equal
    by_contra different
    obtain ⟨row, hrow, rfl⟩ := mem_keys_keyedRows.mp (step.mem_of_deleted hx different)
    obtain ⟨hrow, kept⟩ := List.mem_filter.mp hrow
    rw [h.hasKey_integer hrow, equal] at kept
    cases kept
  · intro apart
    have kept : keyedRows primary
        ((s.table name).rows.filter fun row => !hasKey primary (.integer k) row) =
        (keyedRows primary (s.table name).rows).erase k := by
      rw [keyedRows, keyedRows, KeyedRows.erase, List.filter_map]
      refine congrArg _ (List.filter_congr ?_)
      intro row hrow
      rw [h.hasKey_integer hrow, Function.comp]
      by_cases same : keyOf primary row = k
      · simp [same, equal_integer_self]
      · have different := mt (apart _ (mem_keys_keyedRows.mpr ⟨row, hrow, rfl⟩)) same
        simp [same, Bool.eq_false_iff.mpr different]
    have removed := KeyedRows.length_erase h.distinct k
    rw [← kept, length_keyedRows, length_keyedRows] at removed
    rw [removed, kept]
    by_cases stored : k ∈ (keyedRows primary (s.table name).rows).keys
    · rw [if_pos stored]
      exact .deleted stored
    · rw [if_neg stored, KeyedRows.erase_of_not_mem stored]
      exact .undeleted stored

/-- A keyed call leaves the table well keyed, and does what it says of a map exactly when its key
is told apart. -/
theorem apply_keyed (h : WellKeyed e primary (s.table name)) (registered : r.get? name = some e)
    (hprimary : e.primaryField = some primary) (declared : e.hasScalar primary = true)
    {call : Call} (own : call.entity = name) (keyed : call.Keyed primary (s.table name)) :
    WellKeyed e primary ((apply r s call).table name) ∧
      (StepsAsMap r s name e primary call ↔ ∀ k, call.key primary = .integer k →
        call.ToldApart (s.keyed name primary).keys k) := by
  subst own
  cases call with
  | insert name row => exact insert_keyed h registered hprimary declared keyed
  | patch name key values =>
      obtain ⟨⟨k, signed, rfl⟩, other⟩ := keyed
      obtain ⟨after, step⟩ := patch_keyed h registered hprimary declared (k := k) other
      refine ⟨after, step.trans ⟨?_, fun apart => apart k rfl⟩⟩
      intro apart k' same
      cases same
      exact apart
  | delete name key =>
      obtain ⟨k, signed, rfl⟩ := keyed
      obtain ⟨after, step⟩ := delete_keyed h registered hprimary k
      refine ⟨after, step.trans ⟨?_, fun apart => apart k rfl⟩⟩
      intro apart k' same
      cases same
      exact apart

/-- The rows of a keyed run are well keyed after every call. -/
theorem wellKeyed_run (registered : r.get? name = some e)
    (hprimary : e.primaryField = some primary) (declared : e.hasScalar primary = true)
    {calls : List Call} (keyed : ∀ done call rest, calls = done ++ call :: rest →
      call.entity = name → call.Keyed primary ((run r [] done).table name)) :
    WellKeyed e primary ((run r [] calls).table name) := by
  induction calls using List.reverseRecOn with
  | nil =>
      exact ⟨fun row h => absurd h List.not_mem_nil, fun row h => absurd h List.not_mem_nil,
        List.nodup_nil, le_refl _⟩
  | append_singleton done call ih =>
      have before := ih fun first next rest split own =>
        keyed first next (rest ++ [call]) (by simp [split]) own
      have step : run r [] (done ++ [call]) = apply r (run r [] done) call := by simp [run]
      rw [step]
      by_cases own : call.entity = name
      · exact (apply_keyed before registered hprimary declared own
          (keyed done call [] rfl own)).1
      · rwa [table_apply_of_ne own]

theorem queriedRows_selectAll (key : Option KeyFilter) :
    s.queriedRows e key true (.selectAll e) =
      (s.table e.name).rows.filter fun row => key.all (·.holds row) := by
  have kept : ∀ rows : List Row, SortKey.sorted [] rows = rows := fun rows =>
    List.Pairwise.insertionSort_eq (List.pairwise_of_forall fun _ _ => rfl)
  have all : ∀ row : Row, (key.all (·.holds row) && (FetchPlan.selectAll e).predicates.all
      (·.holds row)) = key.all (·.holds row) := fun row => Bool.and_true _
  have unordered : SortKey.Preordered (FetchPlan.selectAll e).ordering (s.table e.name).rows :=
    fun k hk => absurd hk List.not_mem_nil
  rw [queriedRows_eq unordered, fetchedRows, levelRows, List.filter_congr fun row _ => all row]
  exact kept _

/-- A plan without relations is answered by the columns of the rows that are queried. -/
theorem select_flat {plan : FetchPlan} (registered : r.get? name = some e) {scope : KeyScope}
    {key : Option KeyFilter} (reach : scope.filter? e = .ok key)
    (asked : key.any (·.keys.isEmpty) = false) (flat : plan.relations = [])
    (columns : (plan.columnsOf e).Nodup) :
    select r s name scope plan = .ok ((s.queriedRows e key true plan).map fun row =>
      .object ((plan.columnsOf e).map fun c => (c, Json.field row c))) := by
  have found : (ExceptT.mk (pure (.ok key)) : ExceptT RequestError Id (Option KeyFilter)) =
      pure key := rfl
  have level : (levelColumns r e key plan).Nodup := nodup_foldl_addName columns
  have shown : ∀ row, stripColumns
      ((levelColumns r e key plan).filter fun c => !(plan.columnsOf e).contains c)
      (projectRow (levelColumns r e key plan) row) =
      (plan.columnsOf e).map fun c => (c, Json.field row c) := by
    intro row
    have nothing : s.entriesOf r e row plan.relations = [] := by rw [flat, entriesOf]
    have own : s.objectOf r e row plan = (plan.columnsOf e).map fun c => (c, Json.field row c) := by
      obtain ⟨shownAs, relations, modifiers⟩ := plan
      rw [objectOf, nothing, List.append_nil]
    have stripped := stripColumns_level (s := s) (r := r) columns
      (fun c (_ : c ∈ levelColumns r e key plan) => by rw [nothing]; exact List.not_mem_nil)
    rwa [nothing, List.append_nil, own, ← projectRow_of_nodup level] at stripped
  rw [select, fetchGraph, registered]
  simp only [reach]
  rw [found, pure_bind, fetchLevel_query asked true, flat, attachAll, pure_bind, pure_bind,
    List.map_map]
  refine congrArg Except.ok (List.map_congr_left ?_)
  intro row _
  exact congrArg Json.object (shown row)

/-- Reading every column answers with the full rows in reach, in the order of insertion. -/
theorem select_selectAll (registered : r.get? name = some e) (named : e.name = name)
    (distinct : (Dict.keys e.fields).Nodup) {scope : KeyScope} {key : Option KeyFilter}
    (reach : scope.filter? e = .ok key) (asked : key.any (·.keys.isEmpty) = false) :
    select r s name scope (.selectAll e) =
      .ok (((s.table name).rows.filter fun row => key.all (·.holds row)).map (fullRow e)) := by
  have columns : (FetchPlan.selectAll e).columnsOf e = e.scalarNames :=
    List.filter_eq_self.mpr fun column => Entity.hasScalar_of_mem_scalarNames distinct
  have nodup : ((FetchPlan.selectAll e).columnsOf e).Nodup :=
    columns.symm ▸ Entity.nodup_scalarNames distinct
  rw [select_flat registered reach asked rfl nodup, queriedRows_selectAll, columns, named]
  rfl

/-- Reading by a key answers with the row under it exactly when no other key is equal to it. -/
theorem select_one (h : WellKeyed e primary (s.table name)) (registered : r.get? name = some e)
    (named : e.name = name) (distinct : (Dict.keys e.fields).Nodup)
    (hprimary : e.primaryField = some primary) (declared : e.hasScalar primary = true) (k : Int) :
    select r s name (.one (.integer k)) (.selectAll e) =
        .ok (((s.keyed name primary).get? k).toList.map (fullRow e)) ↔
      ∀ x ∈ (s.keyed name primary).keys, (Json.integer x).equal (.integer k) = true → x = k := by
  have reach : KeyScope.filter? e (.one (.integer k)) = .ok (some ⟨primary, [.integer k]⟩) := by
    simp [KeyScope.filter?, KeyScope.filter?.keyed, hprimary]
  have under : ((s.keyed name primary).get? k).toList =
      (s.table name).rows.filter fun row => keyOf primary row = k := by
    rw [keyed, KeyedRows.toList_get? h.distinct, keyedRows, List.filter_map, List.map_map]
    exact List.map_id _
  have hit : ∀ row ∈ (s.table name).rows,
      (some ⟨primary, [.integer k]⟩ : Option KeyFilter).all (·.holds row) =
        (Json.integer (keyOf primary row)).equal (.integer k) := by
    intro row hrow
    simp [KeyFilter.holds, h.field_primary hrow]
  rw [select_selectAll registered named distinct reach rfl, under,
    List.filter_congr hit]
  constructor
  · intro same x hx equal
    obtain ⟨row, hrow, rfl⟩ := mem_keys_keyedRows.mp hx
    have shown : fullRow e row ∈
        ((s.table name).rows.filter fun row => keyOf primary row = k).map (fullRow e) := by
      rw [← Except.ok.inj same]
      exact List.mem_map_of_mem (List.mem_filter.mpr ⟨hrow, equal⟩)
    obtain ⟨row', hrow', alike⟩ := List.mem_map.mp shown
    obtain ⟨hrow', own⟩ := List.mem_filter.mp hrow'
    exact (keyOf_eq_of_fullRow_eq declared alike).symm.trans (of_decide_eq_true own)
  · intro apart
    refine congrArg (fun rows => Except.ok (rows.map (fullRow e))) (List.filter_congr ?_)
    intro row hrow
    rw [Bool.eq_iff_iff, decide_eq_true_eq]
    refine ⟨apart _ (mem_keys_keyedRows.mpr ⟨row, hrow, rfl⟩), ?_⟩
    intro own
    rw [own]
    exact equal_integer_self k

/-- The table of an entity acts as a map from keys to rows: it is well keyed, each keyed call
does what it says of the map, if its key is told apart from the stored ones and only then, and
reading answers with the full rows. -/
structure ActsAsMap (r : Registry) (s : MemoryStore) (name : String) (e : Entity)
    (primary : String) : Prop where
  wellKeyed : WellKeyed e primary (s.table name)
  own : ∀ call : Call, call.entity = name → call.Keyed primary (s.table name) →
    (StepsAsMap r s name e primary call ↔ ∀ k, call.key primary = .integer k →
      call.ToldApart (s.keyed name primary).keys k)
  other : ∀ call : Call, call.entity ≠ name →
    (apply r s call).keyed name primary = s.keyed name primary
  one : ∀ k, select r s name (.one (.integer k)) (.selectAll e) =
      .ok (((s.keyed name primary).get? k).toList.map (fullRow e)) ↔
    ∀ x ∈ (s.keyed name primary).keys, (Json.integer x).equal (.integer k) = true → x = k
  all : select r s name .all (.selectAll e) =
    .ok ((s.keyed name primary).map fun entry => fullRow e entry.2)

/-- Where the key has at most 53 bits and a sign, the call does what it says of the map. -/
theorem ActsAsMap.stepsAsMap_of_natAbs_lt (acts : ActsAsMap r s name e primary) {call : Call}
    (own : call.entity = name) (keyed : call.Keyed primary (s.table name))
    (small : ∀ k, call.key primary = .integer k → k.natAbs < 2 ^ 53) :
    StepsAsMap r s name e primary call := by
  refine (acts.own call own keyed).mpr fun k asked => ?_
  exact call.toldApart_of_natAbs_lt _ (small k asked)

/-- In every state of a keyed run from the empty store, the table acts as a map. -/
theorem actsAsMap_run {entities : List Entity} (accepted : Registry.ofList entities = .ok r)
    (registered : r.get? name = some e) (distinct : (Dict.keys e.fields).Nodup)
    (hprimary : e.primaryField = some primary) (declared : e.hasScalar primary = true)
    {calls : List Call} (keyed : ∀ done call rest, calls = done ++ call :: rest →
      call.entity = name → call.Keyed primary ((run r [] done).table name)) :
    ActsAsMap r (run r [] calls) name e primary := by
  have named := (Registry.mem_of_get? accepted registered).2
  have h := wellKeyed_run registered hprimary declared keyed
  constructor
  case wellKeyed => exact h
  case own =>
    intro call own isKeyed
    exact (apply_keyed h registered hprimary declared own isKeyed).2
  case other =>
    intro call other
    exact congrArg (fun t : Table => keyedRows primary t.rows) (table_apply_of_ne other)
  case one => exact select_one h registered named distinct hprimary declared
  case all =>
    have unrestricted : KeyScope.filter? e .all = .ok none := rfl
    have every := select_selectAll (s := run r [] calls) registered named distinct unrestricted rfl
    have unfiltered : ∀ row ∈ ((run r [] calls).table name).rows,
        (none : Option KeyFilter).all (·.holds row) = true := fun row _ => rfl
    rw [every, List.filter_eq_self.mpr unfiltered, MemoryStore.keyed, keyedRows, List.map_map]
    rfl

end Calls

end MemoryStore

namespace Catalog
open MemoryStore

/-- A category under the key 2 ^ 53, and one whose key is counted up from there. -/
def adjoining : List MemoryStore.Call :=
  [.insert "Category" [("id", .integer (2 ^ 53)), ("name", .string "Systems")],
   .insert "Category" [("name", .string "Web")]]

/-- One key is supplied, twice, and the row under it is deleted together with another. -/
theorem deleted_with_neighbour :
    (∀ done call rest,
      adjoining ++ [.delete "Category" (.integer (2 ^ 53))] = done ++ call :: rest →
        ((call.key "id").isNull = true ∨ call.key "id" = .integer (2 ^ 53)) ∧
          call.Keyed "id" ((run registry [] done).table "Category")) ∧
    answer registry (run registry [] adjoining) (.delete "Category" (.integer (2 ^ 53))) =
      .ok (.deleted 2) ∧
    ¬ StepsAsMap registry (run registry [] adjoining) "Category" category "id"
      (.delete "Category" (.integer (2 ^ 53))) := by
  have signed : Signed64 (2 ^ 53) := by unfold Signed64; omega
  have both : answer registry (run registry [] adjoining)
      (.delete "Category" (.integer (2 ^ 53))) = .ok (.deleted 2) := by
    have registered : registry.get? "Category" = some category := rfl
    rw [answer_delete registered rfl]
    exact congrArg (fun n => Except.ok (Answer.deleted n)) (by decide +kernel)
  refine ⟨?_, both, ?_⟩
  · intro done call rest split
    match done with
    | [] =>
      cases split
      exact ⟨.inr rfl, .inr ⟨2 ^ 53, signed, rfl⟩⟩
    | [_] =>
      cases split
      exact ⟨.inl rfl, .inl ⟨rfl, by decide +kernel⟩⟩
    | [_, _] =>
      cases split
      exact ⟨.inr rfl, 2 ^ 53, signed, rfl⟩
    | _ :: _ :: _ :: more => simp [adjoining] at split
  · intro step
    unfold StepsAsMap at step
    rw [both] at step
    cases step

/-- A category is inserted under a key of the caller, another is counted up, one is renamed. -/
def renamed : List MemoryStore.Call :=
  [.insert "Category" [("id", .integer 7), ("name", .string "Systems")],
   .insert "Category" [("name", .string "Web")],
   .patch "Category" (.integer 7) [("name", .string "Databases")]]

theorem actsAsMap_categories :
    registry.get? "Category" = some category ∧ (Dict.keys category.fields).Nodup ∧
    category.primaryField = some "id" ∧ category.hasScalar "id" = true ∧
    ActsAsMap registry (run registry [] renamed) "Category" category "id" ∧
    StepsAsMap registry (run registry [] renamed) "Category" category "id"
      (.delete "Category" (.integer 7)) := by
  have signed : Signed64 7 := by unfold Signed64; omega
  have acts : ActsAsMap registry (run registry [] renamed) "Category" category "id" := by
    refine actsAsMap_run accepted rfl (by decide) rfl rfl ?_
    intro done call rest split _
    match done with
    | [] =>
      cases split
      exact .inr ⟨7, signed, rfl⟩
    | [_] =>
      cases split
      exact .inl ⟨rfl, by decide +kernel⟩
    | [_, _] =>
      cases split
      exact ⟨⟨7, signed, rfl⟩, by decide⟩
    | _ :: _ :: _ :: more => simp [renamed] at split
  refine ⟨rfl, by decide, rfl, rfl, acts, acts.stepsAsMap_of_natAbs_lt rfl ⟨7, signed, rfl⟩ ?_⟩
  rintro k ⟨⟩
  decide

end Catalog
end EntityGraph
