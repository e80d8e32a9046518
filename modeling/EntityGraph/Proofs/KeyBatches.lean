import Mathlib.Data.List.Pairwise
import Mathlib.Data.List.Perm.Basic
import EntityGraph.Proofs.Columns
import EntityGraph.Proofs.Decoding
import EntityGraph.Proofs.Ordering
import EntityGraph.Proofs.SelectStatement

/-!
When splitting a list of keys over several statements does not show. A row is answered by every
statement that has a key of it, so no row may have keys in two of them. Rows that are answered
once are put in order and paged as a single statement does, where both compare alike.
-/

namespace EntityGraph

section Multiplicity

variable {α β : Type}

/-- Filtering by one predicate after the other yields each element as often as one holds of it. -/
private theorem flatMap_filter_perm (tests : List β) (p : β → α → Bool) (xs : List α) :
    (tests.flatMap fun b => xs.filter (p b)).Perm
      (xs.flatMap fun x => List.replicate (tests.countP (p · x)) x) := by
  induction xs with
  | nil => simp
  | cons x rest ih =>
      rw [List.flatMap_cons]
      refine .trans ?_ (ih.append_left _)
      clear ih
      induction tests with
      | nil => simp
      | cons b tests ih =>
          rw [List.flatMap_cons, List.flatMap_cons]
          by_cases hit : p b x = true
          · rw [List.filter_cons_of_pos hit, List.countP_cons_of_pos (by exact hit),
              List.replicate_succ, List.cons_append, List.cons_append]
            refine .cons x ((ih.append_left _).trans ?_)
            rw [← List.append_assoc, ← List.append_assoc]
            exact List.perm_append_comm.append_right _
          · rw [List.filter_cons_of_neg hit, List.countP_cons_of_neg (by exact hit)]
            refine (ih.append_left _).trans ?_
            rw [← List.append_assoc, ← List.append_assoc]
            exact List.perm_append_comm.append_right _

private theorem flatMap_replicate_eq_filter {xs : List α} {times : α → Nat}
    (once : ∀ x ∈ xs, times x ≤ 1) :
    (xs.flatMap fun x => List.replicate (times x) x) =
      xs.filter fun x => decide (0 < times x) := by
  induction xs with
  | nil => rfl
  | cons x rest ih =>
      have below := ih fun y hy => once y (List.mem_cons_of_mem _ hy)
      have here := once x List.mem_cons_self
      rw [List.flatMap_cons, below]
      obtain zero | one : times x = 0 ∨ times x = 1 := by omega
      · simp [zero]
      · simp [one]

private theorem length_filter_le_flatMap_replicate (xs : List α) (times : α → Nat) :
    (xs.filter fun x => decide (0 < times x)).length ≤
      (xs.flatMap fun x => List.replicate (times x) x).length := by
  induction xs with
  | nil => simp
  | cons x rest ih =>
      rw [List.flatMap_cons, List.length_append, List.length_replicate, List.filter_cons]
      split
      · rename_i positive
        have positive : 0 < times x := by simpa using positive
        rw [List.length_cons]
        omega
      · omega

/-- If nothing is added by repetition then nothing is repeated. -/
private theorem le_one_of_length_eq {xs : List α} {times : α → Nat}
    (h : (xs.flatMap fun x => List.replicate (times x) x).length =
      (xs.filter fun x => decide (0 < times x)).length) : ∀ x ∈ xs, times x ≤ 1 := by
  induction xs with
  | nil => simp
  | cons x rest ih =>
      have others := length_filter_le_flatMap_replicate rest times
      rw [List.flatMap_cons, List.length_append, List.length_replicate, List.filter_cons] at h
      intro y hy
      by_cases positive : 0 < times x
      · rw [if_pos (by simpa using positive), List.length_cons] at h
        cases hy with
        | head => omega
        | tail _ hy => exact ih (by omega) y hy
      · rw [if_neg (by simpa using positive)] at h
        cases hy with
        | head => omega
        | tail _ hy => exact ih (by omega) y hy

end Multiplicity

namespace SqlStore

open Sql

theorem flatten_batches {α : Type} {size : Nat} (positive : 0 < size) {fuel : Nat}
    {xs : List α} (enough : xs.length ≤ fuel) : (batches size fuel xs).flatten = xs := by
  induction fuel generalizing xs with
  | zero =>
      rw [List.length_eq_zero_iff.mp (Nat.le_zero.mp enough)]
      rfl
  | succ fuel ih =>
      cases xs with
      | nil => rfl
      | cons x rest =>
          have fewer : ((x :: rest).drop size).length ≤ fuel := by
            rw [List.length_drop]
            rw [List.length_cons] at *
            omega
          rw [batches, List.flatten_cons, ih fewer, List.take_append_drop]
          simp

theorem length_le_of_mem_batches {α : Type} {size fuel : Nat} {xs part : List α}
    (h : part ∈ batches size fuel xs) : part.length ≤ size := by
  induction fuel generalizing xs with
  | zero => simp [batches] at h
  | succ fuel ih =>
      cases xs with
      | nil => simp [batches] at h
      | cons x rest =>
          rw [batches] at h
          · cases h with
            | head => exact List.length_take_le _ _
            | tail _ h => exact ih h
          · simp

/-- The row has one of the keys in the column and passes the predicates of the query. -/
def hits (q : LevelQuery) (column : String) (t : StoredTable) (keys : List Json)
    (row : StoredRow) : Bool :=
  t.passes (selectOf q (some ⟨column, keys⟩) q.columns true) row

private theorem hits_eq (q : LevelQuery) (column : String) (t : StoredTable)
    (keys : List Json) (row : StoredRow) :
    hits q column t keys row =
      (keys.any (fun key => decide (comparedWith (t.valueOf row column) key = some .eq)) &&
        (conditionsOf q).all fun c => decide (c.truth t row = some true)) := by
  have among : decide (Condition.truth t row (.isIn column keys) = some true) =
      keys.any fun key => decide (comparedWith (t.valueOf row column) key = some .eq) := by
    rw [Bool.eq_iff_iff, decide_eq_true_iff, Condition.truth, Condition.truth.isAmong,
      Truth.any_eq_true]
    simp
  rw [← among]
  rfl

/-- To have a key of the whole list is to have a key of one of its parts. -/
theorem hits_flatten (q : LevelQuery) (column : String) (t : StoredTable)
    (parts : List (List Json)) (row : StoredRow) :
    hits q column t parts.flatten row = parts.any fun keys => hits q column t keys row := by
  simp only [hits_eq, List.any_flatten]
  cases (conditionsOf q).all fun c => decide (c.truth t row = some true) <;> simp

theorem run_bind_eq_ok {α β : Type} {x : SqlAction α} {f : α → SqlAction β}
    {session : SqlSession} {b : β} :
    ((x >>= f).run.run session).1 = .ok b ↔
      ∃ a, (x.run.run session).1 = .ok a ∧ ((f a).run.run (x.run.run session).2).1 = .ok b := by
  rw [ExceptT.run_bind, StateT.run_bind]
  cases hx : x.run.run session with
  | mk result after =>
      cases result with
      | error reason =>
          constructor
          · intro impossible
            cases impossible
          · intro h
            obtain ⟨_, h, _⟩ := h
            cases h
      | ok a =>
          constructor
          · intro h
            exact ⟨a, rfl, h⟩
          · intro h
            obtain ⟨_, h, next⟩ := h
            cases h
            exact next

theorem run_selectRows {session : SqlSession} {q : LevelQuery} {t : StoredTable}
    (stored : session.database.table q.entity.tableName = .ok t) (key : Option KeyFilter)
    (columns : List String) (paged : Bool)
    (few : ((keyCondition key ++ conditionsOf q).flatMap Condition.operands).length ≤ boundLimit)
    (limit : pageFits (selectOf q key columns paged).limit = true)
    (offset : pageFits (selectOf q key columns paged).offset = true) :
    (selectRows q key columns paged).run.run session =
      (decodeRows q.entity columns
        ((t.selectRows (selectOf q key columns paged)).map (t.cellsOf columns)),
        { session with issued := session.issued ++ [.select (selectOf q key columns paged)] }) := by
  have taken : (Statement.select (selectOf q key columns paged)).run session.database =
      .ok ({ rows := (t.selectRows (selectOf q key columns paged)).map (t.cellsOf columns) },
        session.database) := by
    have bound : ¬ boundLimit < (Statement.select (selectOf q key columns paged)).bound.length := by
      rw [Statement.bound, Statement.pieces, Select.bound_pieces, List.length_map]
      exact Nat.not_lt.mpr few
    have found : session.database.table (selectOf q key columns paged).table = .ok t := stored
    rw [Statement.run, if_neg bound, Statement.execute, found]
    simp only [limit, offset]
    rfl
  have answered : (issue (.select (selectOf q key columns paged))).run.run session =
      (.ok { rows := (t.selectRows (selectOf q key columns paged)).map (t.cellsOf columns) },
        { session with issued := session.issued ++ [.select (selectOf q key columns paged)] }) := by
    change issue (.select (selectOf q key columns paged)) session = _
    simp only [issue, taken]
  rw [selectRows, ExceptT.run_bind, StateT.run_bind, answered]
  rfl

/-- The rows that the statements for the parts of a key list answer, one after the other. -/
def answered (q : LevelQuery) (column : String) (t : StoredTable) (columns : List String)
    (parts : List (List Json)) : List StoredRow :=
  parts.flatMap fun keys => t.selectRows (selectOf q (some ⟨column, keys⟩) columns false)

theorem run_selectBatches {session : SqlSession} {q : LevelQuery} {t : StoredTable}
    (stored : session.database.table q.entity.tableName = .ok t) {column : String}
    {columns : List String} {parts : List (List Json)}
    (few : ∀ keys ∈ parts,
      keys.length + ((conditionsOf q).flatMap Condition.operands).length ≤ boundLimit)
    {found : List Row} :
    ((selectBatches q column columns parts).run.run session).1 = .ok found ↔
      (∀ row ∈ answered q column t columns parts, Readable q.entity t columns row) ∧
        found = (answered q column t columns parts).map (shownRow q.entity t columns) := by
  induction parts generalizing session found with
  | nil =>
      constructor
      · intro impossible
        cases impossible
        exact ⟨fun row h => absurd h List.not_mem_nil, rfl⟩
      · intro h
        obtain ⟨_, rfl⟩ := h
        rfl
  | cons keys rest ih =>
      have first := run_selectRows stored (some ⟨column, keys⟩) columns false
        (by simpa [keyCondition, Condition.operands] using few keys List.mem_cons_self) rfl rfl
      have split : answered q column t columns (keys :: rest) =
          t.selectRows (selectOf q (some ⟨column, keys⟩) columns false) ++
            answered q column t columns rest := List.flatMap_cons
      rw [selectBatches, run_bind_eq_ok, split, List.forall_mem_append, List.map_append]
      rw [first]
      have others := @ih
        { session with issued := session.issued ++
            [.select (selectOf q (some ⟨column, keys⟩) columns false)] }
        stored fun part h => few part (List.mem_cons_of_mem _ h)
      constructor
      · intro h
        obtain ⟨rows, decoded, next⟩ := h
        obtain ⟨more, rest, done⟩ := run_bind_eq_ok.mp next
        cases done
        obtain ⟨readable, rfl⟩ := decodeRows_eq_ok_iff.mp decoded
        obtain ⟨readable', rfl⟩ := others.mp rest
        exact ⟨⟨readable, readable'⟩, rfl⟩
      · intro h
        obtain ⟨⟨readable, readable'⟩, rfl⟩ := h
        exact ⟨_, decodeRows_eq_ok_iff.mpr ⟨readable, rfl⟩,
          run_bind_eq_ok.mpr ⟨_, others.mpr ⟨readable', rfl⟩, rfl⟩⟩

section Answered

variable {q : LevelQuery} {column : String} {t : StoredTable} {parts : List (List Json)}

theorem answered_perm (columns : List String) :
    (answered q column t columns parts).Perm (t.rows.flatMap fun row =>
      List.replicate (parts.countP fun keys => hits q column t keys row) row) := by
  refine .trans (List.Perm.flatMap_left _ ?_)
    (flatMap_filter_perm parts (fun keys row => hits q column t keys row) t.rows)
  intro keys _
  exact t.selectRows_perm rfl rfl

theorem hits_flatten_iff (row : StoredRow) : hits q column t parts.flatten row =
    decide (0 < parts.countP fun keys => hits q column t keys row) := by
  rw [hits_flatten, Bool.eq_iff_iff, List.any_eq_true, decide_eq_true_iff, List.countP_pos_iff]

theorem mem_answered {columns : List String} {row : StoredRow} :
    row ∈ answered q column t columns parts ↔
      row ∈ t.rows ∧ hits q column t parts.flatten row = true := by
  rw [(answered_perm columns).mem_iff, hits_flatten_iff, decide_eq_true_iff, List.mem_flatMap]
  constructor
  · intro h
    obtain ⟨stored, member, replicated⟩ := h
    obtain ⟨positive, rfl⟩ := List.mem_replicate.mp replicated
    exact ⟨member, Nat.pos_of_ne_zero positive⟩
  · intro h
    obtain ⟨member, positive⟩ := h
    exact ⟨row, member, List.mem_replicate.mpr ⟨Nat.ne_of_gt positive, rfl⟩⟩

/-- Rows with keys in one part only are answered as by one statement. -/
theorem answered_perm_filter (columns : List String)
    (once : ∀ row ∈ t.rows, (parts.countP fun keys => hits q column t keys row) ≤ 1) :
    (answered q column t columns parts).Perm (t.rows.filter (hits q column t parts.flatten)) := by
  rw [List.filter_congr fun row _ => hits_flatten_iff row, ← flatMap_replicate_eq_filter once]
  exact answered_perm columns

theorem once_of_length_answered {columns : List String}
    (h : (answered q column t columns parts).length =
      (t.rows.filter (hits q column t parts.flatten)).length) :
    ∀ row ∈ t.rows, (parts.countP fun keys => hits q column t keys row) ≤ 1 := by
  rw [List.filter_congr fun row _ => hits_flatten_iff row, (answered_perm columns).length_eq] at h
  exact le_one_of_length_eq h

end Answered

/-- The answer of a single statement for all keys. -/
def oneStatement (q : LevelQuery) (t : StoredTable) : Except RequestError (List Row) :=
  decodeRows q.entity q.columns
    ((t.selectRows (selectOf q q.key q.columns true)).map (t.cellsOf q.columns))

/-- The database takes the statements of the query: it has the table, and neither the page nor
the values that are bound are beyond its limits. -/
structure Accepts (session : SqlSession) (q : LevelQuery) (k : KeyFilter) (t : StoredTable)
    (size : Nat) : Prop where
  stored : session.database.table q.entity.tableName = .ok t
  limit : pageFits q.limit = true
  offset : pageFits q.offset = true
  bound : min k.keys.length size +
    ((conditionsOf q).flatMap Condition.operands).length ≤ boundLimit

/-- No row is answered by two of the statements for the parts of the key list, every row can be
read together with the columns of the ordering, and a column that is named twice is null. -/
structure SplitsCleanly (q : LevelQuery) (k : KeyFilter) (t : StoredTable) (size : Nat) :
    Prop where
  once : ∀ row ∈ t.rows,
    ((batches size k.keys.length k.keys).countP fun keys => hits q k.column t keys row) ≤ 1
  readable : ∀ row ∈ t.rows, hits q k.column t k.keys row = true →
    Readable q.entity t (orderedColumns q) row
  repeated : ∀ row ∈ t.rows, hits q k.column t k.keys row = true →
    ∀ c, List.Duplicate c q.columns → t.cellOf row c = .null

/-- What is read of the rows that are found is put in order as what is stored of them. -/
def ComparesAlike (q : LevelQuery) (k : KeyFilter) (t : StoredTable) : Prop :=
  ∀ a ∈ t.rows, ∀ b ∈ t.rows, hits q k.column t k.keys a = true →
    hits q k.column t k.keys b = true → ∀ key ∈ orderOf q,
      (shownValue q.entity t a key.field).sortOrder (shownValue q.entity t b key.field) =
        (t.cellOf a key.field).sortOrder (t.cellOf b key.field)

/-- No two rows that are found tie in the ordering. -/
def Untied (q : LevelQuery) (k : KeyFilter) (t : StoredTable) : Prop :=
  (t.rows.filter (hits q k.column t k.keys)).Pairwise fun a b =>
    t.compareRows (orderOf q) a b ≠ .eq

/-- The rows that the statements for the parts of the key list answer. -/
def batched (q : LevelQuery) (k : KeyFilter) (t : StoredTable) (size : Nat) : List StoredRow :=
  answered q k.column t (orderedColumns q) (batches size k.keys.length k.keys)

section Batched

variable {q : LevelQuery} {k : KeyFilter} {t : StoredTable} {size : Nat} {session : SqlSession}

theorem mem_batched (positive : 0 < size) {row : StoredRow} :
    row ∈ batched q k t size ↔ row ∈ t.rows ∧ hits q k.column t k.keys row = true := by
  rw [batched, mem_answered, flatten_batches positive (Nat.le_refl _)]

theorem batched_perm (positive : 0 < size)
    (once : ∀ row ∈ t.rows,
      ((batches size k.keys.length k.keys).countP fun keys => hits q k.column t keys row) ≤ 1) :
    (batched q k t size).Perm (t.rows.filter (hits q k.column t k.keys)) := by
  have perm := answered_perm_filter (orderedColumns q) once
  rwa [flatten_batches positive (Nat.le_refl _)] at perm

theorem run_fetchBatched (accepts : Accepts session q k t size) (long : size < k.keys.length)
    {found : List Row} :
    ((fetchBatched size q k).run.run session).1 = .ok found ↔
      (∀ row ∈ batched q k t size, Readable q.entity t (orderedColumns q) row) ∧
      found = (page q.offset q.limit (SortKey.sortRows (orderOf q)
        ((batched q k t size).map (shownRow q.entity t (orderedColumns q))))).map
          fun row => takeColumns row [] q.columns := by
  have few : ∀ keys ∈ batches size k.keys.length k.keys,
      keys.length + ((conditionsOf q).flatMap Condition.operands).length ≤ boundLimit := by
    intro keys h
    have short := length_le_of_mem_batches h
    have bound := accepts.bound
    omega
  rw [fetchBatched, run_bind_eq_ok]
  constructor
  · intro h
    obtain ⟨rows, selected, done⟩ := h
    cases done
    obtain ⟨readable, rfl⟩ := (run_selectBatches accepts.stored few).mp selected
    exact ⟨readable, rfl⟩
  · intro h
    obtain ⟨readable, rfl⟩ := h
    exact ⟨_, (run_selectBatches accepts.stored few).mpr ⟨readable, rfl⟩, rfl⟩

theorem mem_orderedColumns {c : String} :
    c ∈ orderedColumns q ↔ c ∈ q.columns ∨ c ∈ (orderOf q).map (·.field) :=
  mem_foldl_addName

theorem takeColumns_shownRow {row : StoredRow}
    (readable : Readable q.entity t (orderedColumns q) row)
    (repeated : ∀ c, List.Duplicate c q.columns → t.cellOf row c = .null) :
    takeColumns (shownRow q.entity t (orderedColumns q) row) [] q.columns =
      shownRow q.entity t q.columns row := by
  have shown : ∀ c ∈ q.columns, Json.field (shownRow q.entity t (orderedColumns q) row) c =
      shownValue q.entity t row c :=
    fun c hc => field_shownRow (mem_orderedColumns.mpr (.inl hc)) row
  rw [takeColumns_eq_ofList, shownRow]
  · congr 1
    refine List.map_congr_left ?_
    intro c hc
    exact congrArg (Prod.mk c) (shown c hc)
  · intro c hc
    rw [shown c hc.mem, shownValue_eq_null_iff readable (mem_orderedColumns.mpr (.inl hc.mem))]
    exact repeated c hc

private theorem unpaged_perm (unlimited : q.limit = none) (fromStart : q.offset = none)
    (shown : List Row) :
    ((page q.offset q.limit (SortKey.sortRows (orderOf q) shown)).map fun row =>
      takeColumns row [] q.columns).Perm (shown.map fun row => takeColumns row [] q.columns) := by
  rw [unlimited, fromStart]
  exact (SortKey.sortRows_perm (orderOf q) shown).map _

private theorem selectRows_perm_hits (keyed : q.key = some k) (unlimited : q.limit = none)
    (fromStart : q.offset = none) :
    (t.selectRows (selectOf q q.key q.columns true)).Perm
      (t.rows.filter (hits q k.column t k.keys)) := by
  have selected := t.selectRows_perm (s := selectOf q q.key q.columns true) unlimited fromStart
  rw [keyed] at selected ⊢
  exact selected

/-- Rows that are shown as those of one statement were split cleanly. -/
private theorem splitsCleanly_of_perm (positive : 0 < size)
    (readAll : ∀ row ∈ batched q k t size, Readable q.entity t (orderedColumns q) row)
    (readable : ∀ row ∈ t.rows.filter (hits q k.column t k.keys),
      Readable q.entity t q.columns row)
    (alike : ((batched q k t size).map fun row =>
        takeColumns (shownRow q.entity t (orderedColumns q) row) [] q.columns).Perm
      ((t.rows.filter (hits q k.column t k.keys)).map (shownRow q.entity t q.columns))) :
    SplitsCleanly q k t size := by
  have lengths := alike.length_eq
  rw [List.length_map, List.length_map] at lengths
  have once : ∀ row ∈ t.rows, ((batches size k.keys.length k.keys).countP fun keys =>
      hits q k.column t keys row) ≤ 1 :=
    once_of_length_answered (by rwa [flatten_batches positive (Nat.le_refl _)])
  refine ⟨once, fun row hrow hit => readAll row ((mem_batched positive).mpr ⟨hrow, hit⟩), ?_⟩
  intro row hrow hit c hc
  have here : row ∈ t.rows.filter (hits q k.column t k.keys) :=
    List.mem_filter.mpr ⟨hrow, hit⟩
  obtain ⟨other, _, taken⟩ := List.mem_map.mp (alike.mem_iff.mpr (List.mem_map_of_mem here))
  have null := field_takeColumns_of_duplicate (shownRow q.entity t (orderedColumns q) other) hc
  rw [taken, field_shownRow hc.mem] at null
  exact (shownValue_eq_null_iff (readable row here) hc.mem).mp null

/-- Without a page, splitting does not show exactly where it is clean. -/
theorem fetchBatched_perm_iff (accepts : Accepts session q k t size) (positive : 0 < size)
    (long : size < k.keys.length) (keyed : q.key = some k) (unlimited : q.limit = none)
    (fromStart : q.offset = none) {rows : List Row} (one : oneStatement q t = .ok rows) :
    (∃ found, ((fetchBatched size q k).run.run session).1 = .ok found ∧ found.Perm rows) ↔
      SplitsCleanly q k t size := by
  have single := selectRows_perm_hits (t := t) keyed unlimited fromStart
  obtain ⟨readable, rfl⟩ := decodeRows_eq_ok_iff.mp one
  have merged := unpaged_perm unlimited fromStart
    ((batched q k t size).map (shownRow q.entity t (orderedColumns q)))
  rw [List.map_map] at merged
  constructor
  · intro h
    obtain ⟨answer, ran, same⟩ := h
    obtain ⟨readAll, rfl⟩ := (run_fetchBatched accepts long).mp ran
    refine splitsCleanly_of_perm positive readAll ?_ (merged.symm.trans (same.trans (single.map _)))
    intro row hrow
    exact readable row (single.mem_iff.mpr hrow)
  · intro clean
    have found : ∀ row ∈ batched q k t size,
        row ∈ t.rows ∧ hits q k.column t k.keys row = true :=
      fun row hrow => (mem_batched positive).mp hrow
    refine ⟨_, (run_fetchBatched accepts long).mpr ⟨?_, rfl⟩, merged.trans ?_⟩
    · intro row hrow
      exact clean.readable row (found row hrow).1 (found row hrow).2
    · have shown : (batched q k t size).map ((fun row => takeColumns row [] q.columns) ∘
          shownRow q.entity t (orderedColumns q)) =
          (batched q k t size).map (shownRow q.entity t q.columns) := by
        refine List.map_congr_left ?_
        intro row hrow
        obtain ⟨stored, hit⟩ := found row hrow
        exact takeColumns_shownRow (clean.readable row stored hit)
          (clean.repeated row stored hit)
      rw [shown]
      exact ((batched_perm positive clean.once).trans single.symm).map _

private theorem compareRows_eq {order : List SortKey} {a b : StoredRow} {shownA shownB : Row}
    (alike : ∀ key ∈ order, (Json.field shownA key.field).sortOrder (Json.field shownB key.field) =
      (t.cellOf a key.field).sortOrder (t.cellOf b key.field)) :
    SortKey.compareRows order shownA shownB = t.compareRows order a b := by
  induction order with
  | nil => rfl
  | cons key rest ih =>
      have here := alike key List.mem_cons_self
      have others := ih fun other h => alike other (List.mem_cons_of_mem _ h)
      rw [SortKey.compareRows, StoredTable.compareRows, here, others]

private theorem field_ordering {row : StoredRow} {key : SortKey} (h : key ∈ orderOf q) :
    Json.field (shownRow q.entity t (orderedColumns q) row) key.field =
      shownValue q.entity t row key.field :=
  field_shownRow (mem_orderedColumns.mpr (.inr (List.mem_map_of_mem h))) row

section Ordered

variable {rows : List StoredRow}
  (found : ∀ row ∈ rows, row ∈ t.rows ∧ hits q k.column t k.keys row = true)
include found

private theorem preordered_shown (alike : ComparesAlike q k t) :
    SortKey.Preordered (orderOf q) (rows.map (shownRow q.entity t (orderedColumns q))) := by
  intro key hkey
  have stored : ∀ v, (∃ row ∈ rows.map (shownRow q.entity t (orderedColumns q)),
      v = Json.field row key.field) →
      ∃ row, (row ∈ t.rows ∧ hits q k.column t k.keys row = true) ∧
        v = shownValue q.entity t row key.field := by
    intro v h
    obtain ⟨shown, hshown, rfl⟩ := h
    obtain ⟨row, hrow, rfl⟩ := List.mem_map.mp hshown
    exact ⟨row, found row hrow, field_ordering hkey⟩
  constructor
  · intro a b _ _
    rw [Json.sortOrder_swap a b]
    cases a.sortOrder b <;> simp [Ordering.isLE]
  · intro a b c ha hb hc ab bc
    obtain ⟨x, ⟨hx, hitx⟩, rfl⟩ := stored a ha
    obtain ⟨y, ⟨hy, hity⟩, rfl⟩ := stored b hb
    obtain ⟨z, ⟨hz, hitz⟩, rfl⟩ := stored c hc
    rw [alike x hx y hy hitx hity key hkey] at ab
    rw [alike y hy z hz hity hitz key hkey] at bc
    rw [alike x hx z hz hitx hitz key hkey]
    exact Cell.transCmp_sortOrder.isLE_trans ab bc

private theorem compareRows_shown (alike : ComparesAlike q k t) {a b : StoredRow} (ha : a ∈ rows)
    (hb : b ∈ rows) :
    SortKey.compareRows (orderOf q) (shownRow q.entity t (orderedColumns q) a)
      (shownRow q.entity t (orderedColumns q) b) = t.compareRows (orderOf q) a b := by
  refine compareRows_eq ?_
  intro key hkey
  rw [field_ordering hkey, field_ordering hkey]
  exact alike a (found a ha).1 b (found b hb).1 (found a ha).2 (found b hb).2 key hkey

end Ordered

private theorem eq_of_tied (untied : Untied q k t) {a b : StoredRow}
    (ha : a ∈ t.rows.filter (hits q k.column t k.keys))
    (hb : b ∈ t.rows.filter (hits q k.column t k.keys))
    (tied : t.compareRows (orderOf q) a b = .eq) : a = b := by
  have symm : Std.Symm fun a b : StoredRow => t.compareRows (orderOf q) a b ≠ .eq := by
    constructor
    intro x y apart same
    rw [(t.transCmp_compareRows (orderOf q)).eq_swap (a := x), same] at apart
    exact apart rfl
  by_contra apart
  exact untied.forall ha hb apart tied

/-- Rows that are found and do not tie have one order, whichever side sorts them. -/
private theorem sortRows_shown (alike : ComparesAlike q k t) (untied : Untied q k t)
    {rows sorted : List StoredRow} (same : rows.Perm sorted)
    (found : ∀ row ∈ sorted, row ∈ t.rows.filter (hits q k.column t k.keys))
    (inOrder : sorted.Pairwise fun a b => (t.compareRows (orderOf q) a b).isLE) :
    SortKey.sortRows (orderOf q) (rows.map (shownRow q.entity t (orderedColumns q))) =
      sorted.map (shownRow q.entity t (orderedColumns q)) := by
  have stored : ∀ row ∈ sorted, row ∈ t.rows ∧ hits q k.column t k.keys row = true :=
    fun row hrow => List.mem_filter.mp (found row hrow)
  have preordered := preordered_shown (fun row hrow => stored row (same.mem_iff.mp hrow)) alike
  rw [SortKey.sortRows_eq_sorted preordered]
  -- Both lists are in order, and what comes neither before nor after is the same row.
  refine List.Perm.eq_of_pairwise ?_ (SortKey.pairwise_sorted preordered) ?_ ?_
  · intro a b ha hb ab ba
    obtain ⟨x, hx, rfl⟩ := List.mem_map.mp (SortKey.mem_sorted.mp ha)
    obtain ⟨y, hy, rfl⟩ := List.mem_map.mp hb
    have hx := same.mem_iff.mp hx
    rw [SortKey.MayPrecede, compareRows_shown stored alike hx hy] at ab
    rw [SortKey.MayPrecede, compareRows_shown stored alike hy hx,
      (t.transCmp_compareRows (orderOf q)).eq_swap] at ba
    have tied : t.compareRows (orderOf q) x y = .eq := by
      cases h : t.compareRows (orderOf q) x y with
      | eq => rfl
      | lt =>
          rw [h] at ba
          cases ba
      | gt =>
          rw [h] at ab
          cases ab
    rw [eq_of_tied untied (found x hx) (found y hy) tied]
  · refine List.pairwise_map.mpr (inOrder.imp_of_mem ?_)
    intro a b ha hb ab
    rw [SortKey.MayPrecede, compareRows_shown stored alike ha hb]
    exact ab
  · exact (List.perm_insertionSort _ _).trans (same.map _)

/-- Where splitting is clean and no rows tie, the rows come in the order of a single statement,
and the page is the same. -/
theorem fetchBatched_eq (accepts : Accepts session q k t size) (positive : 0 < size)
    (long : size < k.keys.length) (keyed : q.key = some k) (clean : SplitsCleanly q k t size)
    (alike : ComparesAlike q k t) (untied : Untied q k t) {rows : List Row}
    (one : oneStatement q t = .ok rows) :
    ((fetchBatched size q k).run.run session).1 = .ok rows := by
  obtain ⟨readable, rfl⟩ := decodeRows_eq_ok_iff.mp one
  obtain ⟨sorted, selected, same, inOrder⟩ := t.selectRows_spec (selectOf q q.key q.columns true)
  have same : sorted.Perm (t.rows.filter (hits q k.column t k.keys)) := by
    rw [keyed] at same
    exact same
  have lined := sortRows_shown alike untied
    ((batched_perm positive clean.once).trans same.symm)
    (fun row hrow => same.mem_iff.mp hrow) inOrder
  refine (run_fetchBatched accepts long).mpr ⟨?_, ?_⟩
  · intro row hrow
    obtain ⟨stored, hit⟩ := (mem_batched positive).mp hrow
    exact clean.readable row stored hit
  · rw [lined, page_map, List.map_map, selected]
    refine List.map_congr_left ?_
    intro row hrow
    obtain ⟨stored, hit⟩ := List.mem_filter.mp (same.mem_iff.mp (mem_of_mem_page hrow))
    exact (takeColumns_shownRow (clean.readable row stored hit)
      (clean.repeated row stored hit)).symm

end Batched

section Source

variable {st : SqlStore} {session : SqlSession} {q : LevelQuery} {k : KeyFilter} {t : StoredTable}

private theorem oneStatement_of_no_keys (keyed : q.key = some k) (empty : k.keys = []) :
    oneStatement q t = .ok [] := by
  obtain ⟨sorted, selected, same, _⟩ := t.selectRows_spec (selectOf q q.key q.columns true)
  have nothing : t.rows.filter (t.passes (selectOf q q.key q.columns true)) = [] := by
    refine List.filter_eq_nil_iff.mpr ?_
    intro row _ hit
    have hit : hits q k.column t k.keys row = true := by
      rw [keyed] at hit
      exact hit
    rw [empty] at hit
    exact absurd hit (by rw [hits_eq]; simp)
  rw [nothing, List.perm_nil] at same
  rw [oneStatement, selected, same, page_nil]
  rfl

/-- A key list that is not split is answered by one statement. -/
theorem source_of_short (keyed : q.key = some k)
    (accepts : Accepts session q k t (max st.batchSize 1))
    (short : k.keys.length ≤ max st.batchSize 1) :
    ((st.source q).run.run session).1 = oneStatement q t := by
  rw [source, keyed]
  dsimp only
  by_cases empty : k.keys = []
  · rw [if_pos (List.isEmpty_iff.mpr empty), oneStatement_of_no_keys keyed empty]
    rfl
  · rw [if_neg (by simpa using empty), if_neg (Nat.not_lt.mpr short)]
    have few : ((keyCondition (some k) ++ conditionsOf q).flatMap Condition.operands).length ≤
        boundLimit := by
      have bound := accepts.bound
      rw [Nat.min_eq_left short] at bound
      simpa [keyCondition, Condition.operands] using bound
    rw [run_selectRows accepts.stored (some k) q.columns true few accepts.limit accepts.offset,
      oneStatement, keyed]

/-- Splitting the keys over several statements changes nothing of the rows, and of their order
and page where no rows tie, exactly where the keys are not split or split cleanly. -/
theorem source_eq_oneStatement (keyed : q.key = some k)
    (accepts : Accepts session q k t (max st.batchSize 1)) {rows : List Row}
    (one : oneStatement q t = .ok rows) :
    (q.limit = none → q.offset = none →
      ((∃ found, ((st.source q).run.run session).1 = .ok found ∧ found.Perm rows) ↔
        k.keys.length ≤ max st.batchSize 1 ∨ SplitsCleanly q k t (max st.batchSize 1))) ∧
    (k.keys.length ≤ max st.batchSize 1 ∨ SplitsCleanly q k t (max st.batchSize 1) →
      ComparesAlike q k t → Untied q k t → ((st.source q).run.run session).1 = .ok rows) := by
  by_cases short : k.keys.length ≤ max st.batchSize 1
  · have answer := source_of_short keyed accepts short
    rw [one] at answer
    exact ⟨fun _ _ => iff_of_true ⟨rows, answer, .refl _⟩ (.inl short), fun _ _ _ => answer⟩
  · have long : max st.batchSize 1 < k.keys.length := Nat.lt_of_not_le short
    have positive : 0 < max st.batchSize 1 := Nat.lt_of_lt_of_le Nat.one_pos (Nat.le_max_right _ _)
    have some_keys : ¬ k.keys.isEmpty = true := by
      intro empty
      rw [List.isEmpty_iff.mp empty] at long
      exact Nat.not_lt_zero _ long
    have batched : st.source q = fetchBatched (max st.batchSize 1) q k := by
      rw [source, keyed]
      dsimp only
      rw [if_neg some_keys, if_pos long]
    rw [batched, or_iff_right short]
    constructor
    · intro unlimited fromStart
      exact fetchBatched_perm_iff accepts positive long keyed unlimited fromStart one
    · intro clean alike untied
      exact fetchBatched_eq accepts positive long keyed clean alike untied one

end Source

end SqlStore

namespace Catalog
open Sql SqlStore

def categoryTable : StoredTable :=
  ⟨columnDefs category,
    [⟨1, [.int 1, .text "Systems"]⟩, ⟨2, [.int 2, .text "Web"]⟩]⟩

def session : SqlSession := { database := [("category", categoryTable)] }

/-- A store that asks for one key at a time. -/
def singly : SqlStore := ⟨registry, 1⟩

def categoryKeys (keys : List Json) : KeyFilter := ⟨"id", keys⟩

/-- The first by name of the categories with the keys. -/
def firstCategory (keys : List Json) : LevelQuery where
  entity := category
  columns := ["id", "name"]
  key := some (categoryKeys keys)
  order := [⟨"name", false⟩]
  limit := some 1

def categoriesOf (keys : List Json) : LevelQuery where
  entity := category
  columns := ["id", "name"]
  key := some (categoryKeys keys)

/-- A repeated key. -/
theorem repeated_key_answered_twice :
    oneStatement (categoriesOf [.ofInt 1, .ofInt 1]) categoryTable =
      .ok [[("id", .ofInt 1), ("name", .string "Systems")]] ∧
    ¬ ∃ found, ((singly.source (categoriesOf [.ofInt 1, .ofInt 1])).run.run session).1 =
      .ok found ∧ found.Perm [[("id", .ofInt 1), ("name", .string "Systems")]] := by
  refine ⟨rfl, ?_⟩
  intro h
  obtain ⟨found, ran, same⟩ := h
  cases ran
  exact absurd same.length_eq (by decide)

theorem accepts_first : Accepts session (firstCategory [.ofInt 2, .ofInt 1])
    (categoryKeys [.ofInt 2, .ofInt 1]) categoryTable 1 := by
  have stored : session.database.table "Category" = .ok categoryTable := rfl
  exact ⟨stored, rfl, rfl, by decide⟩

theorem oneStatement_first : oneStatement (firstCategory [.ofInt 2, .ofInt 1]) categoryTable =
    .ok [[("id", .ofInt 1), ("name", .string "Systems")]] := by
  have kept : (categoryTable.rows.mergeSort fun a b =>
      categoryTable.compareRows [⟨"name", false⟩] a b != .gt) = categoryTable.rows :=
    List.mergeSort_of_pairwise (by decide)
  change decodeRows category ["id", "name"] ((page none (some 1)
    (categoryTable.rows.mergeSort fun a b =>
      categoryTable.compareRows [⟨"name", false⟩] a b != .gt)).map _) = _
  rw [kept]
  rfl

theorem splitsCleanly_first : SplitsCleanly (firstCategory [.ofInt 2, .ofInt 1])
    (categoryKeys [.ofInt 2, .ofInt 1]) categoryTable 1 := by
  constructor
  · decide
  · intro row hrow _ c hc
    have hc : c ∈ ["id", "name"] := hc
    simp only [categoryTable, List.mem_cons, List.not_mem_nil, or_false] at hrow hc
    obtain rfl | rfl := hrow <;> obtain rfl | rfl := hc <;> exact ⟨_, rfl⟩
  · intro row _ _ c hc
    have distinct : (firstCategory [.ofInt 2, .ofInt 1]).columns.Nodup := by decide
    exact absurd distinct hc.not_nodup

theorem comparesAlike_first : ComparesAlike (firstCategory [.ofInt 2, .ofInt 1])
    (categoryKeys [.ofInt 2, .ofInt 1]) categoryTable := by
  intro a ha b hb _ _ key hkey
  have hkey : key ∈ [⟨"name", false⟩] := hkey
  rw [List.mem_singleton.mp hkey]
  simp only [categoryTable, List.mem_cons, List.not_mem_nil, or_false] at ha hb
  obtain rfl | rfl := ha <;> obtain rfl | rfl := hb <;> rfl

/-- Two keys in two statements, of whose rows the first by name is left. -/
theorem source_first :
    Accepts session (firstCategory [.ofInt 2, .ofInt 1]) (categoryKeys [.ofInt 2, .ofInt 1])
      categoryTable 1 ∧
    SplitsCleanly (firstCategory [.ofInt 2, .ofInt 1]) (categoryKeys [.ofInt 2, .ofInt 1])
      categoryTable 1 ∧
    ((singly.source (firstCategory [.ofInt 2, .ofInt 1])).run.run session).1 =
      .ok [[("id", .ofInt 1), ("name", .string "Systems")]] :=
  ⟨accepts_first, splitsCleanly_first,
    (source_eq_oneStatement rfl
      (show Accepts session _ _ _ (max singly.batchSize 1) from accepts_first)
      oneStatement_first).2 (.inr splitsCleanly_first) comparesAlike_first
      (by unfold Untied; decide)⟩

end Catalog

end EntityGraph
