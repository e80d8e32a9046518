import EntityGraph.Proofs.ThreeValued
import EntityGraph.Proofs.ValueKinds

/-!
How the operators of filters fit together. Between two values of one kind exactly one of less, equal
and greater holds, and the other comparisons are made of these; membership in a list is equality
with one of its elements. An operand that has been put into the form of its operator stays as it is,
and the filter means what it meant before.
-/

namespace EntityGraph

/-- The comparisons of a column with an operand are made of three, of which one holds. -/
structure Json.ComparisonsFit (column operand : Json) : Prop where
  exactlyOne : ∃! op : FilterOp, op ∈ [.lt, .eq, .gt] ∧ op.holds column operand = true
  gte : FilterOp.gte.holds column operand = true ↔
    FilterOp.gt.holds column operand = true ∨ FilterOp.eq.holds column operand = true
  lte : FilterOp.lte.holds column operand = true ↔
    FilterOp.lt.holds column operand = true ∨ FilterOp.eq.holds column operand = true
  notEq : FilterOp.notEq.holds column operand = true ↔ ¬ FilterOp.eq.holds column operand = true

namespace Json

theorem ne_null_of_kind? {v : Json} {k : Kind} (h : v.kind? = some k) : v ≠ .null := by
  rintro rfl
  cases h

/-- Values of one kind have an order, and are equal just where they tie in it. -/
theorem compare?_of_kind {a b : Json} {k : Kind} (ha : a.kind? = some k) (hb : b.kind? = some k) :
    ∃ order, a.compare? b = some order ∧ (a.equal b = true ↔ order = .eq) := by
  cases a with
  | number x =>
      cases b with
      | number y => exact ⟨_, rfl, Double.same_eq_true⟩
      | _ => cases ha; cases hb
  | string x =>
      cases b with
      | string y => exact ⟨_, rfl, by simp [equal, same]⟩
      | _ => cases ha; cases hb
  | bool x =>
      cases b with
      | bool y => exact ⟨_, rfl, by cases x <;> cases y <;> decide⟩
      | _ => cases ha; cases hb
  | _ => cases ha

theorem comparisonsFit_of_kind {column operand : Json} {k : Kind} (hc : column.kind? = some k)
    (ho : operand.kind? = some k) : column.ComparisonsFit operand := by
  obtain ⟨order, compares, equal⟩ := compare?_of_kind hc ho
  have accepts (op : FilterOp) {how : Sql.Comparison} (h : Sql.comparison? op = some how) :
      op.holds column operand = how.accepts order :=
    Sql.holds_comparison h (ne_null_of_kind? hc) (ne_null_of_kind? ho) compares equal
  have lt := accepts .lt rfl
  have eq := accepts .eq rfl
  have gt := accepts .gt rfl
  constructor
  case exactlyOne =>
    cases order with
    | lt => exact ⟨.lt, ⟨by simp, lt⟩, by simp [lt, eq, gt, Sql.Comparison.accepts]⟩
    | eq => exact ⟨.eq, ⟨by simp, eq⟩, by simp [lt, eq, gt, Sql.Comparison.accepts]⟩
    | gt => exact ⟨.gt, ⟨by simp, gt⟩, by simp [lt, eq, gt, Sql.Comparison.accepts]⟩
  case gte =>
    rw [accepts .gte rfl, gt, eq]
    cases order <;> decide
  case lte =>
    rw [accepts .lte rfl, lt, eq]
    cases order <;> decide
  case notEq =>
    rw [accepts .notEq rfl, eq]
    cases order <;> decide

end Json

namespace FilterOp

theorem holds_eq_iff {column operand : Json} (present : column ≠ .null) :
    FilterOp.eq.holds column operand = true ↔ column.equal operand = true := by
  have kept : column.isNull = false := by cases column <;> first | rfl | contradiction
  change (if column.isNull = true then false else column.equal operand) = true ↔ _
  rw [kept]
  rfl

/-- What an operand that has been put into the form of its operator can be. -/
theorem normalize_cases {op : FilterOp} {raw operand : Json}
    (h : op.normalize raw = some operand) :
    op = .isNull ∧ operand = .bool (raw.bool?.getD true) ∨
    op.takesList = true ∧ operand = .array raw.asList ∨
    op ≠ .isNull ∧ op.takesList = false ∧ operand = raw := by
  cases op with
  | isNull => cases raw <;> cases h <;> exact .inl ⟨rfl, rfl⟩
  | isIn | notIn => cases raw <;> cases h <;> exact .inr (.inl ⟨rfl, rfl⟩)
  | _ => cases raw <;> cases h <;> exact .inr (.inr ⟨nofun, rfl, rfl⟩)

/-- An operator on lists sees no more of its operand than the list. -/
theorem holds_of_takesList {op : FilterOp} (lists : op.takesList = true) {a b : Json}
    (same : a.asList = b.asList) (column : Json) : op.holds column a = op.holds column b := by
  cases op with
  | isIn | notIn =>
      delta FilterOp.holds
      simp only [same]
  | _ => cases lists

theorem normalize_array_of_takesList {op : FilterOp} (lists : op.takesList = true)
    (items : List Json) : op.normalize (.array items) = some (.array items) := by
  cases op <;> first | rfl | cases lists

/-- Less, equal and greater exclude each other and leave nothing out, and the other comparisons and
the memberships follow from them; an operand in the form of its operator is kept, and passes the
same values as before. -/
theorem operators_fit :
    (∀ (column operand : Json) (kind : Json.Kind), column.kind? = some kind →
      operand.kind? = some kind → column.ComparisonsFit operand) ∧
    (∀ column operand : Json, column ≠ .null →
      (FilterOp.isIn.holds column operand = true ↔
        ∃ v ∈ operand.asList, FilterOp.eq.holds column v = true) ∧
      (FilterOp.notIn.holds column operand = true ↔
        ¬ FilterOp.isIn.holds column operand = true)) ∧
    ∀ (op : FilterOp) (raw operand : Json), op.normalize raw = some operand →
      op.normalize operand = some operand ∧
        ∀ column, op.holds column operand = op.holds column raw := by
  refine ⟨fun _ _ _ => Json.comparisonsFit_of_kind, ?_, ?_⟩
  · intro column operand present
    simp only [Sql.holds_isIn_iff, Sql.holds_notIn_iff, holds_eq_iff present, present, ne_eq,
      not_false_eq_true, true_and, not_exists, not_and, Bool.not_eq_true]
  · intro op raw operand normalized
    obtain ⟨rfl, rfl⟩ | ⟨lists, rfl⟩ | ⟨_, _, rfl⟩ := normalize_cases normalized
    · exact ⟨rfl, fun column => rfl⟩
    · exact ⟨normalize_array_of_takesList lists _, holds_of_takesList lists rfl⟩
    · exact ⟨normalized, fun column => rfl⟩

/-- An integer and a double, a list with a null in it, and a single operand of a list operator. -/
theorem operators_fit_numbers :
    (Json.ofInt 1).ComparisonsFit (.number (.double ⟨false, Double.one⟩)) ∧
    (FilterOp.notIn.holds (.ofInt 3) (.array [.ofInt 1, .null]) = true ↔
      ¬ FilterOp.isIn.holds (.ofInt 3) (.array [.ofInt 1, .null]) = true) ∧
    FilterOp.isIn.normalize (.ofInt 3) = some (.array [.ofInt 3]) ∧
    ∀ column, FilterOp.isIn.holds column (.array [.ofInt 3]) =
      FilterOp.isIn.holds column (.ofInt 3) :=
  ⟨operators_fit.1 _ _ .number rfl rfl, (operators_fit.2.1 (.ofInt 3) _ nofun).2, rfl,
    (operators_fit.2.2 .isIn (.ofInt 3) _ rfl).2⟩

end FilterOp
end EntityGraph
