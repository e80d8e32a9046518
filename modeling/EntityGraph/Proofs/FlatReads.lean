import EntityGraph.Proofs.Columns
import EntityGraph.Proofs.ValueKinds

/-!
What a flat read answers. The rows that are asked for come in the order of the first column that
tells them apart, and as they were inserted where none does; each is shown by the columns that are
asked for, and a page is cut out of the whole answer.
-/

namespace EntityGraph

namespace Json

variable {a b : Json} {P Q : Json → Prop}

/-- Null stands before all else; numbers, texts and truth values stand before greater ones. -/
inductive Before : Json → Json → Prop
  | null {v w : Json} : v.isNull = true → w.isNull = false → Before v w
  | less {v w : Json} : v.compare? w = some .lt → Before v w

theorem before_iff : Before a b ↔ sortOrder a b = .lt := by
  constructor
  · intro before
    cases before with
    | null missing present => simp only [sortOrder, missing, present]
    | less compared =>
        obtain ⟨k, ka, kb⟩ := exists_kind_of_compare? compared
        have ha : a.isNull = false := by cases a <;> first | rfl | cases ka
        have hb : b.isNull = false := by cases b <;> first | rfl | cases kb
        rw [sortOrder_of_present ha hb, compared]
        rfl
  · intro ordered
    cases hb : b.isNull with
    | true => cases ha : a.isNull <;> simp [sortOrder, ha, hb] at ordered
    | false =>
        cases ha : a.isNull with
        | true => exact .null ha hb
        | false => exact .less (compare?_of_lt ha hb ordered)

theorem TotalPreorderOn.mono (h : TotalPreorderOn P) (fewer : ∀ v, Q v → P v) :
    TotalPreorderOn Q :=
  ⟨fun a b ha hb => h.total a b (fewer a ha) (fewer b hb),
    fun a b c ha hb hc => h.trans a b c (fewer a ha) (fewer b hb) (fewer c hc)⟩

/-- Null may stand with any values that are in order. -/
theorem TotalPreorderOn.with_null (h : TotalPreorderOn P) :
    TotalPreorderOn fun v => v = .null ∨ P v := by
  have valued : ∀ {v : Json}, v = .null ∨ P v → v.isNull = false → P v := by
    intro v hv present
    refine hv.resolve_left ?_
    rintro rfl
    cases present
  constructor
  · intro a b _ _
    rw [sortOrder_swap a b]
    cases sortOrder a b <;> simp [Ordering.isLE]
  · intro a b c pa pb pc
    apply isLE_trans_of_present
    intro ha hb hc
    exact h.trans a b c (valued pa ha) (valued pb hb) (valued pc hc)

end Json

namespace SortKey

/-- By the column the first row stands before the second. -/
def Before (k : SortKey) (a b : Row) : Prop :=
  if k.descending then (Json.field b k.field).Before (Json.field a k.field)
  else (Json.field a k.field).Before (Json.field b k.field)

/-- The column does not tell the rows apart. -/
def Ties (k : SortKey) (a b : Row) : Prop := ¬ k.Before a b ∧ ¬ k.Before b a

/-- By the first column that tells the rows apart the first row stands before the second. -/
inductive Precedes : List SortKey → Row → Row → Prop
  | here {k : SortKey} {rest : List SortKey} {a b : Row} :
      k.Before a b → Precedes (k :: rest) a b
  | later {k : SortKey} {rest : List SortKey} {a b : Row} :
      k.Ties a b → Precedes rest a b → Precedes (k :: rest) a b

/-- No column tells the rows apart. -/
def Tied (order : List SortKey) (a b : Row) : Prop := ∀ k ∈ order, k.Ties a b

variable {k : SortKey} {order : List SortKey} {a b : Row} {rows found : List Row}

theorem before_iff : k.Before a b ↔ k.compareBy a b = .lt := by
  unfold Before compareBy
  split <;> exact Json.before_iff

theorem compareBy_swap (k : SortKey) (a b : Row) : k.compareBy b a = (k.compareBy a b).swap := by
  unfold compareBy
  split <;> exact Json.sortOrder_swap _ _

theorem ties_iff : k.Ties a b ↔ k.compareBy a b = .eq := by
  rw [Ties, before_iff, before_iff, compareBy_swap k a b]
  cases k.compareBy a b <;> simp

theorem precedes_iff : Precedes order a b ↔ compareRows order a b = .lt := by
  induction order with
  | nil => exact ⟨nofun, nofun⟩
  | cons k rest ih =>
      rw [compareRows_cons, Ordering.then_eq_lt]
      constructor
      · intro precedes
        cases precedes with
        | here before => exact .inl (before_iff.mp before)
        | later tie below => exact .inr ⟨ties_iff.mp tie, ih.mp below⟩
      · intro ordered
        cases ordered with
        | inl before => exact .here (before_iff.mpr before)
        | inr both => exact .later (ties_iff.mpr both.1) (ih.mpr both.2)

theorem tied_iff : Tied order a b ↔ compareRows order a b = .eq := by
  induction order with
  | nil => exact ⟨fun _ => rfl, fun _ => nofun⟩
  | cons k rest ih =>
      rw [compareRows_cons, Ordering.then_eq_eq, ← ties_iff, ← ih]
      exact List.forall_mem_cons

instance (order : List SortKey) (a b : Row) : Decidable (Tied order a b) :=
  decidable_of_iff _ tied_iff.symm

theorem mayPrecede_iff : MayPrecede order a b ↔ Precedes order a b ∨ Tied order a b := by
  rw [MayPrecede, precedes_iff, tied_iff]
  cases compareRows order a b <;> simp [Ordering.isLE]

/-- The rows are put in order, and rows that tie are left as they were. -/
structure Sorts (order : List SortKey) (rows found : List Row) : Prop where
  perm : found.Perm rows
  ordered : found.Pairwise fun a b => Precedes order a b ∨ Tied order a b
  stable : ∀ row ∈ rows, found.filter (Tied order row) = rows.filter (Tied order row)

/-- Of rows in order, those that tie with one tie with each other. -/
theorem mayPrecede_of_tied (h : Preordered order rows) {row : Row} (hrow : row ∈ rows)
    (ha : a ∈ rows) (hb : b ∈ rows) (tiedA : Tied order row a) (tiedB : Tied order row b) :
    MayPrecede order a b := by
  have before : MayPrecede order a row := by
    rw [MayPrecede, compareRows_swap order row a, tied_iff.mp tiedA]
    rfl
  have after : MayPrecede order row b := mayPrecede_iff.mpr (.inr tiedB)
  exact mayPrecede_trans h ha hrow hb before after

theorem sorts_sortRows (h : Preordered order rows) : Sorts order rows (sortRows order rows) := by
  constructor
  · exact sortRows_perm order rows
  · rw [sortRows_eq_sorted h]
    exact (pairwise_sorted h).imp mayPrecede_iff.mp
  · intro row hrow
    rw [sortRows_eq_sorted h, filter_sorted h]
    apply List.Pairwise.insertionSort_eq
    apply List.pairwise_of_forall_mem_list
    intro a ha b hb
    obtain ⟨ha, tiedA⟩ := List.mem_filter.mp ha
    obtain ⟨hb, tiedB⟩ := List.mem_filter.mp hb
    exact mayPrecede_of_tied h hrow ha hb (of_decide_eq_true tiedA) (of_decide_eq_true tiedB)

/-- Where the values that a column has are in order, so are the rows by the column; a row without
the column counts as one with null. -/
theorem preordered_of_stored (h : ∀ k ∈ order,
    Json.TotalPreorderOn fun v => ∃ row ∈ rows, Dict.get? row k.field = some v) :
    Preordered order rows := by
  intro k hk
  refine (h k hk).with_null.mono ?_
  rintro v ⟨row, hrow, rfl⟩
  cases found : Dict.get? row k.field with
  | none => exact .inl (by simp [Json.field, found])
  | some w => exact .inr ⟨row, hrow, by simp [Json.field, found]⟩

end SortKey

namespace LevelQuery

/-- The row has one of the keys, where there are keys, and passes every filter. -/
structure Wants (q : LevelQuery) (row : Row) : Prop where
  keyed : ∀ k, q.key = some k → ∃ key ∈ k.keys, (Json.field row k.column).equal key = true
  passes : ∀ p ∈ q.predicates, p.op.holds (Json.field row p.field) p.value = true

variable {q : LevelQuery} {row : Row}

theorem wants_iff : q.Wants row ↔ q.holds row = true := by
  have passes : (∀ p ∈ q.predicates, p.op.holds (Json.field row p.field) p.value = true) ↔
      q.predicates.all (·.holds row) = true := List.all_eq_true.symm
  have keyed : (∀ k, q.key = some k → ∃ key ∈ k.keys,
      (Json.field row k.column).equal key = true) ↔ ∀ k, q.key = some k → k.holds row = true := by
    simp only [KeyFilter.holds, List.any_eq_true]
  unfold holds
  rw [Bool.and_eq_true, ← passes]
  refine ⟨fun h => ⟨?_, h.passes⟩, fun h => ⟨keyed.mpr ?_, h.2⟩⟩
  · cases asked : q.key with
    | none => rfl
    | some k => exact keyed.mp h.keyed k asked
  · intro k asked
    rw [asked] at h
    exact h.1

instance (q : LevelQuery) (row : Row) : Decidable (q.Wants row) := decidable_of_iff _ wants_iff.symm

end LevelQuery

/-- The row is shown by the columns, each once and in their order, with null for one it lacks. -/
structure Shows (columns : List String) (row shown : Row) : Prop where
  names : Dict.keys shown = columns.eraseDups
  values : ∀ c ∈ columns, Dict.get? shown c = some (Json.field row c)

theorem shows_projectRow (columns : List String) (row : Row) :
    Shows columns row (projectRow columns row) := by
  constructor
  · rw [projectRow, Dict.keys_ofList]
    simp [Dict.keys, Function.comp_def]
  · intro c hc
    rw [projectRow, Dict.ofList, Dict.get?_insertAll, ← List.map_reverse,
      Dict.get?_map _ _ (List.mem_reverse.mpr hc), Option.some_or]

namespace MemoryStore

/-- Where the values of each ordering column are in order, a flat read yields exactly the stored
rows that are asked for, sorted, and shown by the columns of the query; with a page it yields what
is left of these after the offset, up to the limit. -/
theorem fetch_exact (s : MemoryStore) (q : LevelQuery)
    (ordered : ∀ k ∈ q.order, Json.TotalPreorderOn fun v =>
      ∃ row ∈ (s.table q.entity.name).rows, Dict.get? row k.field = some v) :
    ∃ found answered : List Row,
      SortKey.Sorts q.order ((s.table q.entity.name).rows.filter q.Wants) found ∧
      List.Forall₂ (Shows q.columns) found answered ∧
      (s.source { q with offset := none, limit := none }).run = .ok answered ∧
      ∀ offset limit : Nat,
        (s.source { q with offset := some offset, limit := none }).run =
          .ok (answered.drop offset) ∧
        (s.source { q with offset := none, limit := some limit }).run =
          .ok (answered.take limit) ∧
        (s.source { q with offset := some offset, limit := some limit }).run =
          .ok ((answered.drop offset).take limit) := by
  let wanted := (s.table q.entity.name).rows.filter q.Wants
  have preordered : SortKey.Preordered q.order wanted :=
    (SortKey.preordered_of_stored ordered).mono fun row hrow => List.mem_of_mem_filter hrow
  have shown : List.Forall₂ (Shows q.columns) (SortKey.sortRows q.order wanted)
      ((SortKey.sortRows q.order wanted).map (projectRow q.columns)) :=
    List.forall₂_map_right_iff.mpr (List.forall₂_same.mpr fun row _ => shows_projectRow _ row)
  refine ⟨_, _, SortKey.sorts_sortRows preordered, shown, ?_⟩
  have answers : ∀ offset limit,
      (s.source { q with offset := offset, limit := limit }).run =
        .ok (page offset limit ((SortKey.sortRows q.order wanted).map (projectRow q.columns))) := by
    intro offset limit
    have same : wanted = (s.table q.entity.name).rows.filter q.holds :=
      List.filter_congr fun row _ =>
        Bool.eq_iff_iff.mpr (decide_eq_true_iff.trans LevelQuery.wants_iff)
    rw [page_map, same]
    rfl
  exact ⟨answers none none, fun offset limit =>
    ⟨answers (some offset) none, answers none (some limit), answers (some offset) (some limit)⟩⟩

end MemoryStore

namespace Catalog

/-- Two categories of one name, one without a name, one that is not asked for, and one without an
identity. -/
def manyCategories : MemoryStore :=
  [("Category", ⟨[
    [("id", .ofInt 1), ("name", .string "Web")],
    [("id", .ofInt 2)],
    [("id", .ofInt 3), ("name", .string "Web")],
    [("id", .ofInt 4), ("name", .string "Art")],
    [("id", .ofInt 5), ("name", .string "Sea")],
    [("name", .string "Web")]], 5⟩)]

/-- The last names first. -/
def byName : LevelQuery where
  entity := category
  columns := ["name", "id"]
  predicates := [⟨"id", .isNull, .bool false⟩]
  key := some ⟨"name", [.null, .string "Art", .string "Web"]⟩
  order := [⟨"name", true⟩]

theorem fetch_exact_byName :
    (∀ k ∈ byName.order, Json.TotalPreorderOn fun v =>
      ∃ row ∈ (manyCategories.table "Category").rows, Dict.get? row k.field = some v) ∧
    ∃ found answered : List Row,
      SortKey.Sorts byName.order
        ((manyCategories.table "Category").rows.filter byName.Wants) found ∧
      List.Forall₂ (Shows byName.columns) found answered ∧
      (manyCategories.source byName).run = .ok answered ∧
      (answered.drop 1).take 3 =
        [[("name", .string "Web"), ("id", .ofInt 3)],
         [("name", .string "Art"), ("id", .ofInt 4)],
         [("name", .null), ("id", .ofInt 2)]] := by
  have ordered : ∀ k ∈ byName.order, Json.TotalPreorderOn fun v =>
      ∃ row ∈ (manyCategories.table "Category").rows, Dict.get? row k.field = some v := by
    intro k hk
    obtain rfl := List.mem_singleton.mp hk
    refine Json.totalPreorderOn_of_uniform (.inl ⟨.text, ?_⟩)
    rintro v ⟨row, hrow, found⟩ _
    simp only [manyCategories, MemoryStore.table, Dict.get?, ite_true, Option.getD_some,
      List.mem_cons, List.not_mem_nil, or_false] at hrow
    obtain rfl | rfl | rfl | rfl | rfl | rfl := hrow <;> cases found <;> rfl
  obtain ⟨found, answered, sorts, shown, whole, pages⟩ :=
    MemoryStore.fetch_exact manyCategories byName ordered
  refine ⟨ordered, found, answered, sorts, shown, whole, ?_⟩
  have page := (pages 1 3).2.2
  exact (Except.ok.inj page).symm

end Catalog
end EntityGraph
