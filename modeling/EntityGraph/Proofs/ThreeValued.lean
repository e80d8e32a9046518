import EntityGraph.Proofs.Rounding
import EntityGraph.Proofs.SelectStatement

/-!
A filter on a value held in memory and the condition that a statement asks of the same value.
A comparison with null is unknown in a statement, and a row passes where its condition is known to
be true. Values of one kind are compared exactly in a statement and by their doubles in memory.
The two part ways in four places: where an exclusion lists a null, where it lists nothing and the
column is null, where numbers are searched by their digits, and where two integers have one double.
-/

namespace EntityGraph
namespace Sql

/-- The order of two values as a statement binds them. -/
def boundOrder? (a b : Json) : Option Ordering :=
  (Bound.ofJson a).cell.compare? (Bound.ofJson b).cell

/-- Nulls aside, all texts or all integers. -/
inductive OfOneKind (values : List Json) : Prop where
  | texts (h : ∀ v ∈ values, v = .null ∨ ∃ s, v = .string s)
  | integers (h : ∀ v ∈ values, v = .null ∨ ∃ n, v = .number (.int n))

/-- All values are of one kind, and a column of the type compares with them as they are. -/
structure Comparable (column operand : Json) (type : Option ColumnType) : Prop where
  kind : OfOneKind (column :: operand.asList)
  unconverted : ∀ v ∈ operand.asList, ∀ t, type = some t →
    t.comparand (Bound.ofJson v).cell = (Bound.ofJson v).cell

/-- The comparison that an operator makes, if it makes one. -/
def comparison? : FilterOp → Option Comparison
  | .eq => some .eq
  | .notEq => some .notEq
  | .gt => some .gt
  | .gte => some .gte
  | .lt => some .lt
  | .lte => some .lte
  | _ => none

/-- The row passes the condition of the predicate, if it has one. -/
def StoredTable.admits (t : StoredTable) (row : StoredRow) (p : Predicate) : Prop :=
  ∀ c ∈ Condition.ofPredicate? p, c.truth t row = some true

/-- A selection by predicates finds the rows that pass each of them. -/
theorem passes_iff_admits {s : Select} {predicates : List Predicate}
    (h : s.conditions = predicates.filterMap Condition.ofPredicate?) (t : StoredTable)
    (row : StoredRow) : t.passes s row = true ↔ ∀ p ∈ predicates, t.admits row p := by
  rw [StoredTable.passes, h]
  simp only [List.all_eq_true, List.mem_filterMap, decide_eq_true_eq]
  constructor
  · intro all p hp c hc
    exact all c ⟨p, hp, hc⟩
  · rintro all c ⟨p, hp, hc⟩
    exact all p hp c hc

/-- Where a filter and its condition part ways. -/
inductive Diverges (column operand : Json) : FilterOp → Prop where
  /-- The condition is left out, and the filter lets no null pass. -/
  | nullOutsideNothing : column = .null → operand.asList = [] → Diverges column operand .notIn
  /-- The filter takes a null for one more value that the column differs from. -/
  | nullListed : column ≠ .null → .null ∈ operand.asList →
      (∀ v ∈ operand.asList, column.equal v = false) → Diverges column operand .notIn
  | oneDoubleIn : column ≠ .null → (∃ v ∈ operand.asList, column.equal v = true) →
      (∀ v ∈ operand.asList, boundOrder? column v ≠ some .eq) → Diverges column operand .isIn
  | oneDoubleNotIn : column ≠ .null → .null ∉ operand.asList →
      (∃ v ∈ operand.asList, column.equal v = true) →
      (∀ v ∈ operand.asList, boundOrder? column v ≠ some .eq) → Diverges column operand .notIn
  | oneDouble {op : FilterOp} {how : Comparison} {order : Ordering} : comparison? op = some how →
      column.equal operand = true → boundOrder? column operand = some order →
      how.accepts order ≠ how.accepts .eq → Diverges column operand op
  /-- Numbers have digits in a statement only. -/
  | digits {hay needle : String} : column.string? = none →
      (Bound.ofJson column).cell.text? = some hay →
      (Bound.ofJson operand).cell.text? = some needle →
      Text.contains hay needle = true → Diverges column operand .like

theorem OfOneKind.mono {values fewer : List Json} (kind : OfOneKind values)
    (h : fewer ⊆ values) : OfOneKind fewer := by
  cases kind with
  | texts all => exact .texts fun v hv => all v (h hv)
  | integers all => exact .integers fun v hv => all v (h hv)

/-- Only values that are there are ordered. -/
theorem ne_null_of_boundOrder? {a b : Json} {order : Ordering} (h : boundOrder? a b = some order) :
    a ≠ .null ∧ b ≠ .null := by
  constructor
  · rintro rfl
    simp [boundOrder?, Bound.ofJson, Bound.cell, Cell.compare?] at h
  · rintro rfl
    unfold boundOrder? at h
    cases cell : (Bound.ofJson a).cell <;> rw [cell] at h <;> cases h

private theorem boundOrder?_text (s s' : String) :
    boundOrder? (.string s) (.string s') = some (Ord.compare s s') :=
  rfl

/-- Integers are bound as such up to the largest of 64 bits, and as doubles above it. -/
private theorem boundOrder?_integer (n m : Int) :
    boundOrder? (.number (.int n)) (.number (.int m)) = some (Ord.compare n m) ∨
    boundOrder? (.number (.int n)) (.number (.int m)) =
      some ((Double.ofInt n).compare (Double.ofInt m)) := by
  have cell : ∀ k : Int, (Bound.ofJson (.number (.int k))).cell =
      if k < 2 ^ 63 then .int k else .real (Double.ofInt k) := by
    intro k
    simp only [Bound.ofJson, Number.toInt64?]
    by_cases small : k < 2 ^ 63
    · have fits : k < (Nat.pow 2 63 : Nat) := small
      rw [if_pos fits, if_pos small]
      rfl
    · have tooLarge : ¬ k < (Nat.pow 2 63 : Nat) := small
      rw [if_neg tooLarge, if_neg small]
      rfl
  unfold boundOrder?
  rw [cell, cell]
  by_cases hn : n < 2 ^ 63
  · by_cases hm : m < 2 ^ 63
    · rw [if_pos hn, if_pos hm]
      exact .inl rfl
    · have above : (2 : Int) ^ 63 ≤ m := by omega
      have less : n < m := by omega
      rw [if_pos hn, if_neg hm]
      refine .inl (congrArg some ?_)
      exact (compare_lt_iff_lt.mpr (Double.mul_one_lt_units_ofInt hn above)).trans
        (compare_lt_iff_lt.mpr less).symm
  · by_cases hm : m < 2 ^ 63
    · have above : (2 : Int) ^ 63 ≤ n := by omega
      have less : m < n := by omega
      rw [if_neg hn, if_pos hm]
      refine .inl (congrArg some ?_)
      exact (compare_gt_iff_gt.mpr (Double.mul_one_lt_units_ofInt hm above)).trans
        (compare_gt_iff_gt.mpr less).symm
    · rw [if_neg hn, if_neg hm]
      exact .inr rfl

/-- The order in memory is that of the bound values, except that it may take two for equal. -/
theorem orders_of_oneKind {a b : Json} (kind : OfOneKind [a, b]) (ha : a ≠ .null)
    (hb : b ≠ .null) :
    ∃ exact rounded, boundOrder? a b = some exact ∧ a.compare? b = some rounded ∧
      (rounded = exact ∨ rounded = .eq) ∧ (a.equal b = true ↔ rounded = .eq) := by
  cases kind with
  | texts all =>
      obtain ⟨s, rfl⟩ := (all a (by simp)).resolve_left ha
      obtain ⟨s', rfl⟩ := (all b (by simp)).resolve_left hb
      refine ⟨_, _, boundOrder?_text s s', rfl, .inl rfl, ?_⟩
      simp [Json.equal, Json.same]
  | integers all =>
      obtain ⟨n, rfl⟩ := (all a (by simp)).resolve_left ha
      obtain ⟨m, rfl⟩ := (all b (by simp)).resolve_left hb
      have equal : (Json.number (.int n)).equal (.number (.int m)) = true ↔
          (Double.ofInt n).compare (Double.ofInt m) = .eq := Double.same_eq_true
      obtain exact | rounded := boundOrder?_integer n m
      · exact ⟨_, _, exact, rfl, Double.compare_ofInt n m, equal⟩
      · exact ⟨_, _, rounded, rfl, .inl rfl, equal⟩

/-- A column of texts compares with texts as they are. -/
theorem Comparable.of_texts {column operand : Json}
    (all : ∀ v ∈ column :: operand.asList, v = .null ∨ ∃ s, v = .string s) :
    Comparable column operand (some .text) := by
  refine ⟨.texts all, ?_⟩
  intro v hv type htype
  cases htype
  obtain rfl | ⟨s, rfl⟩ := all v (List.mem_cons_of_mem _ hv) <;> rfl

/-- Any other column compares with integers as they are. -/
theorem Comparable.of_integers {column operand : Json} {type : Option ColumnType}
    (all : ∀ v ∈ column :: operand.asList, v = .null ∨ ∃ n, v = .number (.int n))
    (noText : type ≠ some .text) : Comparable column operand type := by
  refine ⟨.integers all, ?_⟩
  intro v hv type htype
  obtain rfl | ⟨n, rfl⟩ := all v (List.mem_cons_of_mem _ hv)
  · cases type <;> rfl
  · cases type with
    | text => exact absurd htype noText
    | _ => cases fits : (Number.int n).toInt64? <;> simp only [Bound.ofJson, fits] <;> rfl

theorem Comparable.orders {column operand : Json} {type : Option ColumnType}
    (comparable : Comparable column operand type) (present : column ≠ .null) {v : Json}
    (h : v ∈ operand.asList) (given : v ≠ .null) :
    ∃ exact rounded, boundOrder? column v = some exact ∧ column.compare? v = some rounded ∧
      (rounded = exact ∨ rounded = .eq) ∧ (column.equal v = true ↔ rounded = .eq) :=
  orders_of_oneKind (comparable.kind.mono (by simp [h])) present given

theorem Comparable.apart_iff {column operand : Json} {type : Option ColumnType}
    (comparable : Comparable column operand type) {v : Json} (h : v ∈ operand.asList) :
    (∃ order, boundOrder? column v = some order ∧ order ≠ .eq) ↔
      column ≠ .null ∧ v ≠ .null ∧ boundOrder? column v ≠ some .eq := by
  constructor
  · rintro ⟨order, known, differ⟩
    obtain ⟨present, given⟩ := ne_null_of_boundOrder? known
    exact ⟨present, given, by simpa [known] using differ⟩
  · rintro ⟨present, given, apart⟩
    obtain ⟨order, _, known, _⟩ := comparable.orders present h given
    exact ⟨order, known, by simpa [known] using apart⟩

/-- What a statement takes for equal is equal in memory. -/
theorem Comparable.of_same {column operand : Json} {type : Option ColumnType}
    (comparable : Comparable column operand type) {v : Json} (h : v ∈ operand.asList)
    (same : boundOrder? column v = some .eq) : column ≠ .null ∧ column.equal v = true := by
  obtain ⟨present, given⟩ := ne_null_of_boundOrder? same
  obtain ⟨exact, rounded, known, _, near, equal⟩ := comparable.orders present h given
  rw [same] at known
  cases known
  exact ⟨present, equal.mpr (or_self_iff.mp near)⟩

/-! What a filter asks of a value in memory. -/

theorem holds_null {op : FilterOp} (h : op ≠ .isNull) (operand : Json) :
    op.holds .null operand = false := by
  cases op with
  | isNull => exact absurd rfl h
  | _ => rfl

theorem holds_isIn_iff {column operand : Json} : FilterOp.isIn.holds column operand = true ↔
    column ≠ .null ∧ ∃ v ∈ operand.asList, column.equal v = true := by
  change (if column.isNull = true then false else operand.asList.any column.equal) = true ↔ _
  cases column <;> simp [Json.isNull]

theorem holds_notIn_iff {column operand : Json} : FilterOp.notIn.holds column operand = true ↔
    column ≠ .null ∧ ∀ v ∈ operand.asList, column.equal v = false := by
  change (if column.isNull = true then false else !operand.asList.any column.equal) = true ↔ _
  cases column <;> simp [Json.isNull]

theorem holds_comparison {op : FilterOp} {how : Comparison} (h : comparison? op = some how)
    {column operand : Json} {order : Ordering} (hc : column ≠ .null) (ho : operand ≠ .null)
    (compares : column.compare? operand = some order)
    (equal : column.equal operand = true ↔ order = .eq) :
    op.holds column operand = how.accepts order := by
  have present : column.isNull = false := by cases column <;> first | rfl | contradiction
  have given : operand.isNull = false := by cases operand <;> first | rfl | contradiction
  have equal : column.equal operand = decide (order = .eq) := by
    rw [Bool.eq_iff_iff, equal, decide_eq_true_iff]
  cases op <;> cases h <;> delta FilterOp.holds <;>
    simp only [present, given, compares, equal] <;> cases order <;> rfl

theorem holds_like_iff {column operand : Json} : FilterOp.like.holds column operand = true ↔
    ∃ hay needle, column = .string hay ∧ operand = .string needle ∧
      Text.contains hay needle = true := by
  constructor
  · intro h
    cases column with
    | string hay =>
        cases operand with
        | string needle => exact ⟨hay, needle, rfl, rfl, h⟩
        | _ => contradiction
    | _ => contradiction
  · rintro ⟨hay, needle, rfl, rfl, h⟩
    exact h

/-! What its condition asks of the same value in a column, and where the two agree. -/

section Conditions

variable {t : StoredTable} {row : StoredRow} {field : String} {column operand : Json}

theorem diverges_comparison_iff {op : FilterOp} {how : Comparison}
    (h : comparison? op = some how) : Diverges column operand op ↔
      column.equal operand = true ∧ ∃ order, boundOrder? column operand = some order ∧
        how.accepts order ≠ how.accepts .eq := by
  constructor
  · intro diverges
    cases diverges with
    | oneDouble makes equal known differ =>
        cases h.symm.trans makes
        exact ⟨equal, _, known, differ⟩
    | _ => cases h
  · rintro ⟨equal, order, known, differ⟩
    exact .oneDouble h equal known differ

theorem diverges_like_iff : Diverges column operand .like ↔
    column.string? = none ∧ ∃ hay needle, (Bound.ofJson column).cell.text? = some hay ∧
      (Bound.ofJson operand).cell.text? = some needle ∧ Text.contains hay needle = true := by
  constructor
  · intro diverges
    cases diverges with
    | digits number hay needle found => exact ⟨number, _, _, hay, needle, found⟩
    | oneDouble how => cases how
  · rintro ⟨number, _, _, hay, needle, found⟩
    exact .digits number hay needle found

variable (stored : (t.valueOf row field).1 = (Bound.ofJson column).cell)
include stored

theorem admits_isNull_iff (asked : Bool) :
    t.admits row ⟨field, .isNull, .bool asked⟩ ↔ (column.isNull = asked) := by
  have null : ((Bound.ofJson column).cell = .null) ↔ column.isNull = true := by
    cases column with
    | number n =>
        cases fits : n.toInt64? <;> simp [Bound.ofJson, fits, Bound.cell, Json.isNull]
    | _ => simp [Bound.ofJson, Bound.cell, Json.isNull]
  cases asked <;>
    simp [StoredTable.admits, Condition.ofPredicate?, Json.bool?, Condition.truth,
      StoredTable.cellOf, stored, null]

theorem agrees_isNull (asked : Bool) :
    (FilterOp.isNull.holds column (.bool asked) = true ↔
      t.admits row ⟨field, .isNull, .bool asked⟩) ↔ ¬ Diverges column (.bool asked) .isNull := by
  have never : ¬ Diverges column (.bool asked) .isNull := by
    intro diverges
    cases diverges with
    | oneDouble how => cases how
  rw [admits_isNull_iff stored]
  change ((column.isNull == asked) = true ↔ _) ↔ _
  simp [never]

theorem admits_like_iff :
    t.admits row ⟨field, .like, operand⟩ ↔
      ∃ hay needle, (Bound.ofJson column).cell.text? = some hay ∧
        (Bound.ofJson operand).cell.text? = some needle ∧ Text.contains hay needle = true := by
  simp only [StoredTable.admits, Condition.ofPredicate?, Option.mem_def, Option.some.injEq,
    forall_eq', Condition.truth, StoredTable.cellOf, stored]
  simp [Option.bind_eq_some_iff]

variable (comparable : Comparable column operand (t.valueOf row field).2)
include comparable

theorem comparedWith_eq {v : Json} (h : v ∈ operand.asList) :
    comparedWith (t.valueOf row field) v = boundOrder? column v := by
  have asItIs := comparable.unconverted v h
  unfold comparedWith boundOrder?
  rw [stored]
  cases htype : (t.valueOf row field).2 with
  | none => rfl
  | some type => simp only [asItIs type htype]

theorem admits_isIn_iff :
    t.admits row ⟨field, .isIn, operand⟩ ↔
      ∃ v ∈ operand.asList, boundOrder? column v = some .eq := by
  unfold StoredTable.admits Condition.ofPredicate?
  by_cases empty : operand.asList = []
  · simp [empty, Condition.truth]
  · have listed : operand.asList.isEmpty = false := by simpa using empty
    simp only [listed, Bool.false_eq_true, if_false, Option.mem_def, Option.some.injEq, forall_eq',
      Condition.truth, Condition.truth.isAmong, Truth.any_eq_true, List.mem_map,
      Option.map_eq_some_iff, decide_eq_true_eq]
    refine exists_congr fun v => and_congr_right fun hv => ?_
    rw [comparedWith_eq stored comparable hv]
    simp

theorem agrees_isIn :
    (FilterOp.isIn.holds column operand = true ↔ t.admits row ⟨field, .isIn, operand⟩) ↔
      ¬ Diverges column operand .isIn := by
  rw [holds_isIn_iff, admits_isIn_iff stored comparable]
  have listed : (∃ v ∈ operand.asList, boundOrder? column v = some .eq) →
      column ≠ .null ∧ ∃ v ∈ operand.asList, column.equal v = true := by
    rintro ⟨v, hv, same⟩
    exact ⟨(comparable.of_same hv same).1, v, hv, (comparable.of_same hv same).2⟩
  constructor
  · intro agree diverges
    cases diverges with
    | oneDoubleIn present equal apart =>
        obtain ⟨v, hv, same⟩ := agree.mp ⟨present, equal⟩
        exact apart v hv same
    | oneDouble how => cases how
  · intro never
    refine ⟨?_, listed⟩
    rintro ⟨present, equal⟩
    by_contra apart
    push Not at apart
    exact never (.oneDoubleIn present equal apart)

theorem admits_notIn_iff :
    t.admits row ⟨field, .notIn, operand⟩ ↔
      ∀ v ∈ operand.asList, column ≠ .null ∧ v ≠ .null ∧ boundOrder? column v ≠ some .eq := by
  unfold StoredTable.admits Condition.ofPredicate?
  by_cases empty : operand.asList = []
  · simp [empty]
  · have listed : operand.asList.isEmpty = false := by simpa using empty
    simp only [listed, Bool.false_eq_true, if_false, Option.mem_def, Option.some.injEq, forall_eq',
      Condition.truth, Condition.truth.isAmong, Truth.not_eq_true, Truth.any_eq_false,
      List.forall_mem_map, Option.map_eq_some_iff, decide_eq_false_iff_not]
    refine forall_congr' fun v => forall_congr' fun hv => ?_
    rw [comparedWith_eq stored comparable hv]
    exact comparable.apart_iff hv

theorem agrees_notIn :
    (FilterOp.notIn.holds column operand = true ↔ t.admits row ⟨field, .notIn, operand⟩) ↔
      ¬ Diverges column operand .notIn := by
  rw [holds_notIn_iff, admits_notIn_iff stored comparable]
  constructor
  · intro agree diverges
    cases diverges with
    | nullOutsideNothing null empty => exact (agree.mpr (by simp [empty])).1 null
    | nullListed present null different =>
        exact (agree.mp ⟨present, different⟩ .null null).2.1 rfl
    | oneDoubleNotIn present noNull equal apart =>
        obtain ⟨v, hv, equal⟩ := equal
        have passes : ∀ w ∈ operand.asList,
            column ≠ .null ∧ w ≠ .null ∧ boundOrder? column w ≠ some .eq :=
          fun w hw => ⟨present, fun null => noNull (null ▸ hw), apart w hw⟩
        exact absurd ((agree.mpr passes).2 v hv) (by simp [equal])
    | oneDouble how => cases how
  · intro never
    constructor
    · rintro ⟨present, different⟩ v hv
      by_cases null : v = .null
      · exact absurd (.nullListed present (null ▸ hv) different) never
      · refine ⟨present, null, fun same => ?_⟩
        exact absurd (comparable.of_same hv same).2 (by simp [different v hv])
    · intro passes
      have present : column ≠ .null := by
        intro null
        have empty := List.eq_nil_iff_forall_not_mem.mpr fun v hv => (passes v hv).1 null
        exact never (.nullOutsideNothing null empty)
      refine ⟨present, fun v hv => Bool.eq_false_iff.mpr fun equal => ?_⟩
      exact never (.oneDoubleNotIn present (fun null => (passes _ null).2.1 rfl) ⟨v, hv, equal⟩
        fun w hw => (passes w hw).2.2)

theorem admits_comparison_iff {op : FilterOp} {how : Comparison} (h : comparison? op = some how)
    (single : operand ∈ operand.asList) :
    t.admits row ⟨field, op, operand⟩ ↔
      ∃ order, boundOrder? column operand = some order ∧ how.accepts order = true := by
  have condition : Condition.ofPredicate? ⟨field, op, operand⟩ =
      some (.compare field how operand) := by
    cases op <;> cases h <;> rfl
  simp only [StoredTable.admits, condition, Option.mem_def, Option.some.injEq, forall_eq',
    Condition.truth, Option.map_eq_some_iff]
  rw [comparedWith_eq stored comparable single]

theorem agrees_comparison {op : FilterOp} {how : Comparison} (h : comparison? op = some how)
    (given : operand ≠ .null) (single : operand ∈ operand.asList) :
    (op.holds column operand = true ↔ t.admits row ⟨field, op, operand⟩) ↔
      ¬ Diverges column operand op := by
  rw [admits_comparison_iff stored comparable h single, diverges_comparison_iff h]
  by_cases null : column = .null
  · have filtered : op ≠ .isNull := by
      rintro rfl
      cases h
    have unknown : ∀ order, boundOrder? column operand ≠ some order :=
      fun order known => (ne_null_of_boundOrder? known).1 null
    simp [null ▸ holds_null filtered operand, unknown]
  · obtain ⟨exact, rounded, known, compares, near, equal⟩ :=
      comparable.orders null single given
    rw [holds_comparison h null given compares equal, equal]
    simp only [known, Option.some.injEq, exists_eq_left']
    obtain rfl | rfl := near
    · simp +contextual
    · cases how.accepts exact <;> cases how.accepts .eq <;> simp

theorem agrees_like (given : operand ≠ .null) (single : operand ∈ operand.asList) :
    (FilterOp.like.holds column operand = true ↔ t.admits row ⟨field, .like, operand⟩) ↔
      ¬ Diverges column operand .like := by
  rw [holds_like_iff, admits_like_iff stored, diverges_like_iff]
  by_cases number : column.string? = none
  · have noText : ∀ hay, column ≠ .string hay := by
      rintro hay rfl
      cases number
    simp [number, noText]
  · obtain ⟨hay, text⟩ := Option.ne_none_iff_exists'.mp number
    cases column with
    | string hay =>
        cases comparable.kind with
        | texts all =>
            obtain ⟨needle, rfl⟩ := (all operand (by simp [single])).resolve_left given
            simp [Json.string?, Bound.ofJson, Bound.cell, Cell.text?]
        | integers all => simpa using all (.string hay)
    | _ => cases text

end Conditions

/-- Integers of at most 52 bits and a sign have doubles of their own. -/
theorem boundOrder?_of_equal {a b : Json} (kind : OfOneKind [a, b]) (present : a ≠ .null)
    (small : ∀ n, a = .number (.int n) → n.natAbs < 2 ^ 53) (equal : a.equal b = true) :
    boundOrder? a b = some .eq := by
  cases kind with
  | texts all =>
      obtain ⟨s, rfl⟩ := (all a (by simp)).resolve_left present
      obtain rfl | ⟨s', rfl⟩ := all b (by simp)
      · cases equal
      · have same : s = s' := by simpa [Json.equal, Json.same] using equal
        simp [boundOrder?_text, same]
  | integers all =>
      obtain ⟨n, rfl⟩ := (all a (by simp)).resolve_left present
      obtain rfl | ⟨m, rfl⟩ := all b (by simp)
      · cases equal
      · have same : (Double.ofInt m).same (Double.ofInt n) = true := by
          rw [Double.same, BEq.comm]
          exact equal
        cases Double.eq_of_same_ofInt (small n rfl) same
        obtain known | known := boundOrder?_integer n n
        · simp [known]
        · simp [known, Double.compare]

/-- Short of such integers, a filter and its condition can part ways over an exclusion and over
digits only. -/
theorem Diverges.of_small {op : FilterOp} {column operand : Json}
    (kind : OfOneKind (column :: operand.asList))
    (small : ∀ n, column = .number (.int n) → n.natAbs < 2 ^ 53)
    (diverges : Diverges column operand op) :
    (op = .notIn ∧ (operand.asList = [] ∨ .null ∈ operand.asList)) ∨
      (op = .like ∧ column.string? = none) := by
  cases diverges with
  | nullOutsideNothing _ empty => exact .inl ⟨rfl, .inl empty⟩
  | nullListed _ null _ => exact .inl ⟨rfl, .inr null⟩
  | oneDoubleIn present equal apart | oneDoubleNotIn present _ equal apart =>
      obtain ⟨v, hv, equal⟩ := equal
      exact absurd (boundOrder?_of_equal (kind.mono (by simp [hv])) present small equal)
        (apart v hv)
  | oneDouble _ equal known differ =>
      obtain ⟨present, _⟩ := ne_null_of_boundOrder? known
      have single : operand ∈ operand.asList := by
        cases operand with
        | array items =>
            cases kind with
            | texts all =>
                obtain ⟨s, rfl⟩ := (all column (by simp)).resolve_left present
                cases equal
            | integers all =>
                obtain ⟨n, rfl⟩ := (all column (by simp)).resolve_left present
                cases equal
        | _ => exact List.mem_singleton.mpr rfl
      rw [boundOrder?_of_equal (kind.mono (by simp [single])) present small equal] at known
      cases known
      exact absurd rfl differ
  | digits number _ _ _ => exact .inr ⟨rfl, number⟩

/-! The operands that filters have. -/

theorem normalize_isNull {raw operand : Json} (h : FilterOp.isNull.normalize raw = some operand) :
    ∃ asked, operand = .bool asked := by
  cases raw <;> cases h <;> exact ⟨_, rfl⟩

theorem normalize_single {op : FilterOp} (noTest : op ≠ .isNull) (single : op.takesList = false)
    {raw operand : Json} (h : op.normalize raw = some operand) :
    operand ≠ .null ∧ operand ∈ operand.asList := by
  cases op with
  | isNull => exact absurd rfl noTest
  | isIn | notIn => cases single
  | _ => cases raw <;> cases h <;> exact ⟨nofun, List.mem_singleton.mpr rfl⟩

/-- For values of one kind, a filter lets a value pass just where a statement finds it, unless the
two part ways as said above; then one of them does and the other does not. -/
theorem holds_iff_admits_iff {t : StoredTable} {row : StoredRow} {p : Predicate} {raw column : Json}
    (cased : p.op ≠ .likeNoCase) (normalized : p.op.normalize raw = some p.value)
    (stored : (t.valueOf row p.field).1 = (Bound.ofJson column).cell)
    (comparable : p.op = .isNull ∨ Comparable column p.value (t.valueOf row p.field).2) :
    (p.op.holds column p.value = true ↔ t.admits row p) ↔ ¬ Diverges column p.value p.op := by
  obtain ⟨field, op, operand⟩ := p
  cases op with
  | isNull =>
      obtain ⟨asked, rfl⟩ := normalize_isNull normalized
      exact agrees_isNull stored asked
  | likeNoCase => exact absurd rfl cased
  | isIn => exact agrees_isIn stored (comparable.resolve_left (by simp))
  | notIn => exact agrees_notIn stored (comparable.resolve_left (by simp))
  | like =>
      obtain ⟨given, single⟩ := normalize_single (by simp) rfl normalized
      exact agrees_like stored (comparable.resolve_left (by simp)) given single
  | _ =>
      obtain ⟨given, single⟩ := normalize_single (by simp) rfl normalized
      exact agrees_comparison stored (comparable.resolve_left (by simp)) rfl given single

end Sql

namespace Catalog
open Sql

def rust : StoredRow := ⟨1, [.text "Rust", .int 3]⟩

def scores : StoredTable := ⟨[⟨"course", .text, true⟩, ⟨"score", .integer, false⟩], [rust]⟩

def notScored (values : List Json) : Predicate := ⟨"score", .notIn, .array values⟩

def namedOneOf (values : List Json) : Predicate := ⟨"course", .isIn, .array values⟩

/-- A null in an exclusion leaves nothing that is known to pass. -/
theorem excluding_null :
    FilterOp.notIn.normalize (.array [.ofInt 1, .null]) = some (notScored [.ofInt 1, .null]).value ∧
    Comparable (.ofInt 3) (notScored [.ofInt 1, .null]).value (scores.valueOf rust "score").2 ∧
    ¬ (FilterOp.notIn.holds (.ofInt 3) (notScored [.ofInt 1, .null]).value = true ↔
      scores.admits rust (notScored [.ofInt 1, .null])) := by
  refine ⟨rfl, .of_integers ?_ (by decide), ?_⟩
  · simp [notScored, Json.asList, Json.ofInt, Number.ofInt]
  · intro agree
    have unknown := agree.mp (by decide +kernel) _ rfl
    cases unknown

/-- A null among others that are included does no harm: a selection finds the row. -/
theorem including_null :
    Comparable (.string "Rust") (namedOneOf [.string "Go", .null, .string "Rust"]).value
      (scores.valueOf rust "course").2 ∧
    (FilterOp.isIn.holds (.string "Rust") (namedOneOf [.string "Go", .null, .string "Rust"]).value =
        true ↔
      scores.admits rust (namedOneOf [.string "Go", .null, .string "Rust"])) ∧
    ∀ s : Select, s.conditions = [namedOneOf [.string "Go", .null, .string "Rust"]].filterMap
      Condition.ofPredicate? → scores.passes s rust = true := by
  have comparable : Comparable (.string "Rust")
      (namedOneOf [.string "Go", .null, .string "Rust"]).value (scores.valueOf rust "course").2 :=
    .of_texts (by simp [namedOneOf, Json.asList])
  have normalized : FilterOp.isIn.normalize (.array [.string "Go", .null, .string "Rust"]) =
      some (namedOneOf [.string "Go", .null, .string "Rust"]).value := rfl
  have alike : FilterOp.isIn.holds (.string "Rust")
      (namedOneOf [.string "Go", .null, .string "Rust"]).value = true ↔
      scores.admits rust (namedOneOf [.string "Go", .null, .string "Rust"]) := by
    refine (holds_iff_admits_iff (p := namedOneOf _) (by decide) normalized rfl
      (.inr comparable)).mpr fun diverges => ?_
    obtain ⟨exclusion, _⟩ | ⟨search, _⟩ := diverges.of_small comparable.kind nofun
    · cases exclusion
    · cases search
  have found := alike.mp (by decide +kernel)
  refine ⟨comparable, alike, fun s h => (passes_iff_admits h scores rust).mpr ?_⟩
  exact List.forall_mem_singleton.mpr found

end Catalog
end EntityGraph
