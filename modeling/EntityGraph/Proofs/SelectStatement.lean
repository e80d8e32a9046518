import EntityGraph.Proofs.Ordering
import EntityGraph.Sql.Store

/-!
What one selection answers: every stored row that passes, once, in the order that is asked for,
of which a page is taken last. Kept values are put in order by rank, then as exact numbers, then
as texts. Several things at once are true when one of them is and false when all are, of which an
unknown one decides neither. The values that a selection binds are those of its conditions.
-/

namespace EntityGraph
namespace Sql

namespace Cell

private def rank : Cell → Nat
  | .null => 0
  | .int _ | .real _ => 1
  | .text _ => 2

private def units : Cell → Int
  | .int n => n * Double.one
  | .real d => d.units
  | _ => 0

private def letters : Cell → String
  | .text s => s
  | _ => ""

private theorem compare_mul_one (a b : Int) :
    Ord.compare (a * Double.one) (b * Double.one) = Ord.compare a b := by
  have one_pos : 0 < Double.one := by decide +kernel
  have positive : (0 : Int) < Double.one := Int.natCast_pos.mpr one_pos
  change compareOfLessAndEq _ _ = compareOfLessAndEq _ _
  unfold compareOfLessAndEq
  simp only [Int.mul_lt_mul_right positive, Int.mul_eq_mul_right_iff (Int.ne_of_gt positive)]

private theorem compare_of_same_rank (a b : Int) :
    ((Ord.compare 1 1).then ((Ord.compare a b).then (Ord.compare "" ""))) = Ord.compare a b := by
  have same : Ord.compare "" "" = .eq := by decide
  rw [same]
  cases Ord.compare a b <;> rfl

private theorem sortOrder_eq : sortOrder =
    compareLex (compareOn rank) (compareLex (compareOn units) (compareOn letters)) := by
  funext a b
  cases a with
  | null => cases b <;> rfl
  | int n =>
      cases b with
      | null | text _ => rfl
      | int m =>
          refine Eq.trans ?_ (compare_of_same_rank (n * Double.one) (m * Double.one)).symm
          exact (compare_mul_one n m).symm
      | real d => exact (compare_of_same_rank (n * Double.one) d.units).symm
  | real c =>
      cases b with
      | null | text _ => rfl
      | int m => exact (compare_of_same_rank c.units (m * Double.one)).symm
      | real d => exact (compare_of_same_rank c.units d.units).symm
  | text s =>
      cases b with
      | null | int _ | real _ => rfl
      | text s' => rfl

/-- Kept values are in order, whatever their kinds. -/
instance transCmp_sortOrder : Std.TransCmp sortOrder := by
  rw [sortOrder_eq]
  infer_instance

end Cell

namespace StoredTable

variable (t : StoredTable)

/-- The order of two rows by one column. -/
private def compareBy (k : SortKey) (a b : StoredRow) : Ordering :=
  if k.descending then (t.cellOf b k.field).sortOrder (t.cellOf a k.field)
  else (t.cellOf a k.field).sortOrder (t.cellOf b k.field)

private theorem compareRows_cons (k : SortKey) (rest : List SortKey) :
    t.compareRows (k :: rest) = compareLex (t.compareBy k) (t.compareRows rest) := by
  funext a b
  have here : t.compareBy k a b =
      if k.descending then ((t.cellOf a k.field).sortOrder (t.cellOf b k.field)).swap
      else (t.cellOf a k.field).sortOrder (t.cellOf b k.field) := by
    unfold compareBy
    rw [Cell.transCmp_sortOrder.eq_swap (a := t.cellOf b k.field)]
  simp only [compareRows, compareLex, ← here]
  cases t.compareBy k a b <;> rfl

instance transCmp_compareRows (order : List SortKey) : Std.TransCmp (t.compareRows order) := by
  induction order with
  | nil => exact { eq_swap := rfl, isLE_trans := fun _ _ => rfl }
  | cons k rest ih =>
      have upwards : Std.TransCmp fun a b : StoredRow =>
          (t.cellOf a k.field).sortOrder (t.cellOf b k.field) :=
        { eq_swap := Cell.transCmp_sortOrder.eq_swap
          isLE_trans := Cell.transCmp_sortOrder.isLE_trans }
      have first : Std.TransCmp (t.compareBy k) := transCmp_directed upwards k.descending
      rw [compareRows_cons]
      infer_instance

/-- The row passes all conditions of the selection. -/
def passes (s : Select) (row : StoredRow) : Bool :=
  s.conditions.all fun c => c.truth t row = some true

theorem visited_perm (s : Select) : (t.visited s).Perm t.rows := by
  unfold visited
  split
  · exact .refl _
  · split
    · dsimp only
      split
      · exact (List.reverse_perm _).trans (List.mergeSort_perm _ _)
      · exact List.mergeSort_perm _ _
    · exact .refl _

/-- The rows that pass, each once, in the order of the selection, of which a page is taken. -/
theorem selectRows_spec (s : Select) :
    ∃ sorted, t.selectRows s = page s.offset s.limit sorted ∧
      sorted.Perm (t.rows.filter (t.passes s)) ∧
      sorted.Pairwise fun a b => (t.compareRows s.order a b).isLE := by
  have found : ((t.visited s).filter (t.passes s)).Perm (t.rows.filter (t.passes s)) :=
    (t.visited_perm s).filter _
  by_cases unordered : s.order = []
  · refine ⟨_, by rw [selectRows, unordered]; rfl, found, ?_⟩
    rw [unordered]
    exact List.pairwise_of_forall fun a b => rfl
  · have ordered : s.order.isEmpty = false := by simpa using unordered
    refine ⟨_, by rw [selectRows, ordered]; rfl, (List.mergeSort_perm _ _).trans found, ?_⟩
    have cmp := t.transCmp_compareRows s.order
    have le : ∀ a b : StoredRow, (t.compareRows s.order a b != .gt) =
        (t.compareRows s.order a b).isLE := by
      intro a b
      cases t.compareRows s.order a b <;> rfl
    simp only [le]
    refine List.pairwise_mergeSort ?_ ?_ _
    · intro a b c
      exact cmp.isLE_trans
    · intro a b
      rw [cmp.eq_swap (a := b)]
      cases t.compareRows s.order a b <;> rfl

theorem selectRows_perm {s : Select} (unlimited : s.limit = none) (fromStart : s.offset = none) :
    (t.selectRows s).Perm (t.rows.filter (t.passes s)) := by
  obtain ⟨sorted, page, perm, _⟩ := t.selectRows_spec s
  rw [page, unlimited, fromStart]
  exact perm

end StoredTable

/-! The value of a condition that asks several things. -/

namespace Truth

theorem any_eq_true {truths : List Truth} :
    Truth.any truths = some true ↔ some true ∈ truths := by
  induction truths with
  | nil => simp [any]
  | cons first rest ih =>
      rw [List.mem_cons, ← ih]
      obtain _ | _ | _ := first <;> rcases h : any rest with _ | _ | _ <;> simp [any, h]

theorem any_eq_false {truths : List Truth} :
    Truth.any truths = some false ↔ ∀ t ∈ truths, t = some false := by
  induction truths with
  | nil => simp [any]
  | cons first rest ih =>
      rw [List.forall_mem_cons, ← ih]
      obtain _ | _ | _ := first <;> rcases h : any rest with _ | _ | _ <;> simp [any, h]

theorem not_eq_true {t : Truth} : t.not = some true ↔ t = some false := by
  simp [not]

end Truth

/-! The values that a selection binds. -/

namespace Piece

theorem bound_words (s : String) (rest : List Piece) : bound (.words s :: rest) = bound rest :=
  rfl

theorem bound_append (ps more : List Piece) : bound (ps ++ more) = bound ps ++ bound more := by
  induction ps with
  | nil => rfl
  | cons p rest ih => cases p <;> simp [bound, ih]

theorem separated_cons_cons (separator : String) (ps next : List Piece)
    (rest : List (List Piece)) : separated separator (ps :: next :: rest) =
      ps ++ .words separator :: separated separator (next :: rest) := rfl

theorem bound_separated (separator : String) (pieces : List (List Piece)) :
    bound (separated separator pieces) = pieces.flatMap bound := by
  induction pieces with
  | nil => rfl
  | cons ps rest ih =>
      cases rest with
      | nil => simp [separated]
      | cons next rest =>
          rw [separated_cons_cons, bound_append, bound_words, ih]
          simp

theorem bound_values (vs : List Json) : bound (values vs) = vs := by
  rw [values, bound_separated, List.flatMap_map]
  simp [bound]

theorem bound_names (ns : List String) : bound (names ns) = [] := by
  rw [names, bound_separated, List.flatMap_map]
  simp [bound]

end Piece

/-- The values that the condition compares with. -/
def Condition.operands : Condition → List Json
  | .isIn _ vs | .notIn _ vs => vs
  | .compare _ _ v | .contains _ v | .containsNoCase _ v => [v]
  | .never | .isNull _ | .isNotNull _ => []

theorem Condition.bound_pieces (c : Condition) : Piece.bound c.pieces = c.operands := by
  cases c <;> simp [pieces, operands, Piece.bound_append, Piece.bound, Piece.bound_values]

theorem Select.bound_pieces (s : Select) :
    Piece.bound s.pieces = s.conditions.flatMap Condition.operands := by
  have columns : Piece.bound (if s.columns.isEmpty then [.words "SELECT 1"]
      else .words "SELECT " :: Piece.names s.columns) = [] := by
    split
    · rfl
    · exact Piece.bound_names s.columns
  have conditions : Piece.bound (if s.conditions.isEmpty then []
      else .words " WHERE " :: Piece.separated " AND " (s.conditions.map Condition.pieces)) =
      s.conditions.flatMap Condition.operands := by
    split
    · rename_i empty
      rw [List.isEmpty_iff.mp empty]
      rfl
    · rw [Piece.bound_words, Piece.bound_separated, List.flatMap_map]
      simp [Condition.bound_pieces]
  have order : Piece.bound (if s.order.isEmpty then []
      else .words " ORDER BY " :: orderPieces s.order) = [] := by
    split
    · rfl
    · rw [Piece.bound_words, orderPieces, Piece.bound_separated, List.flatMap_map]
      simp [Piece.bound]
  have paging : Piece.bound (pagePieces s.limit s.offset) = [] := by
    unfold pagePieces
    split <;> rfl
  rw [pieces, Piece.bound_append, Piece.bound_append, Piece.bound_append, Piece.bound_append,
    columns, conditions, order, paging]
  simp [Piece.bound]

end Sql
end EntityGraph
