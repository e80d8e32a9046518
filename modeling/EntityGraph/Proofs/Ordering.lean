import Mathlib.Data.List.Induction
import Mathlib.Data.List.Sort
import EntityGraph.Store.Level

/-!
Sorting rows. Two values always compare the same way from both sides; that their order is also
transitive is a property of the values at hand. Where it is, the rows come out sorted, rows that
tie keep their order, and sorting commutes with leaving rows out.
-/

namespace EntityGraph

/-- Comparing upwards or downwards. -/
theorem transCmp_directed {α : Type} {cmp : α → α → Ordering} (h : Std.TransCmp cmp)
    (descending : Bool) :
    Std.TransCmp fun a b => if descending then cmp b a else cmp a b := by
  cases descending with
  | false => exact h
  | true =>
      exact { eq_swap := h.eq_swap
              isLE_trans := fun ab bc => h.isLE_trans bc ab }

theorem Double.compare_swap (a b : Double) : b.compare a = (a.compare b).swap := by
  unfold Double.compare
  exact Std.OrientedOrd.eq_swap

namespace Json

theorem compare?_swap (a b : Json) : compare? b a = (compare? a b).map Ordering.swap := by
  cases a <;> cases b <;> simp only [compare?, Option.map_some, Option.map_none]
  · rw [Std.OrientedOrd.eq_swap]
  · rw [Double.compare_swap]
  · rw [Std.OrientedOrd.eq_swap]

theorem sortOrder_swap (a b : Json) : sortOrder b a = (sortOrder a b).swap := by
  unfold sortOrder
  rw [compare?_swap a b]
  cases a.isNull <;> cases b.isNull <;> simp
  cases compare? a b <;> rfl

/-- Among the values with `P`, the order of sorting is a total preorder. -/
structure TotalPreorderOn (P : Json → Prop) : Prop where
  total : ∀ a b, P a → P b → (sortOrder a b).isLE ∨ (sortOrder b a).isLE
  trans : ∀ a b c, P a → P b → P c →
    (sortOrder a b).isLE → (sortOrder b c).isLE → (sortOrder a c).isLE

end Json

namespace SortKey

/-- The order of two rows by one column. -/
def compareBy (k : SortKey) (a b : Row) : Ordering :=
  if k.descending then (Json.field b k.field).sortOrder (Json.field a k.field)
  else (Json.field a k.field).sortOrder (Json.field b k.field)

theorem compareRows_cons (k : SortKey) (rest : List SortKey) (a b : Row) :
    compareRows (k :: rest) a b = (k.compareBy a b).then (compareRows rest a b) := by
  have here : k.compareBy a b =
      if k.descending then ((Json.field a k.field).sortOrder (Json.field b k.field)).swap
      else (Json.field a k.field).sortOrder (Json.field b k.field) := by
    unfold compareBy
    rw [Json.sortOrder_swap (Json.field a k.field)]
  simp only [compareRows, ← here]
  cases k.compareBy a b <;> rfl

/-- In every sort column, the values of the rows are put in order. -/
def Preordered (order : List SortKey) (rows : List Row) : Prop :=
  ∀ k ∈ order, Json.TotalPreorderOn fun v => ∃ row ∈ rows, v = Json.field row k.field

theorem Preordered.mono {order : List SortKey} {rows fewer : List Row}
    (h : Preordered order rows) (sub : ∀ row ∈ fewer, row ∈ rows) : Preordered order fewer := by
  intro k hk
  have up : ∀ v, (∃ row ∈ fewer, v = Json.field row k.field) →
      ∃ row ∈ rows, v = Json.field row k.field := by
    intro v hv
    obtain ⟨row, hrow, rfl⟩ := hv
    exact ⟨row, sub row hrow, rfl⟩
  exact ⟨fun a b ha hb => (h k hk).total a b (up a ha) (up b hb),
    fun a b c ha hb hc => (h k hk).trans a b c (up a ha) (up b hb) (up c hc)⟩

private theorem transCmp_compareBy {k : SortKey} {rows : List Row}
    (h : Json.TotalPreorderOn fun v => ∃ row ∈ rows, v = Json.field row k.field) :
    Std.TransCmp fun a b : { row // row ∈ rows } => k.compareBy a.1 b.1 := by
  have value (x : { row // row ∈ rows }) :
      ∃ row ∈ rows, Json.field x.1 k.field = Json.field row k.field := ⟨x.1, x.2, rfl⟩
  have upwards : Std.TransCmp fun a b : { row // row ∈ rows } =>
      (Json.field a.1 k.field).sortOrder (Json.field b.1 k.field) :=
    { eq_swap := Json.sortOrder_swap _ _
      isLE_trans := fun ab bc => h.trans _ _ _ (value _) (value _) (value _) ab bc }
  exact transCmp_directed upwards k.descending

theorem transCmp_compareRows {order : List SortKey} {rows : List Row}
    (h : Preordered order rows) :
    Std.TransCmp fun a b : { row // row ∈ rows } => compareRows order a.1 b.1 := by
  induction order with
  | nil => exact { eq_swap := rfl, isLE_trans := fun _ _ => rfl }
  | cons k rest ih =>
      have first := transCmp_compareBy (h k List.mem_cons_self)
      have others := ih fun k hk => h k (List.mem_cons_of_mem _ hk)
      simp only [compareRows_cons]
      exact inferInstanceAs (Std.TransCmp (compareLex
        (fun a b : { row // row ∈ rows } => k.compareBy a.1 b.1)
        (fun a b : { row // row ∈ rows } => compareRows rest a.1 b.1)))

theorem compareRows_swap (order : List SortKey) (a b : Row) :
    compareRows order b a = (compareRows order a b).swap := by
  induction order with
  | nil => rfl
  | cons k rest ih =>
      rw [compareRows_cons, compareRows_cons, Ordering.swap_then, ih]
      congr 1
      unfold compareBy
      split <;> exact Json.sortOrder_swap _ _

/-- The first row may stand before the second. -/
def MayPrecede (order : List SortKey) (a b : Row) : Prop := (compareRows order a b).isLE

instance (order : List SortKey) : DecidableRel (MayPrecede order) :=
  fun a b => inferInstanceAs (Decidable ((compareRows order a b).isLE = true))

theorem mayPrecede_total (order : List SortKey) (a b : Row) :
    MayPrecede order a b ∨ MayPrecede order b a := by
  unfold MayPrecede
  rw [compareRows_swap order a b]
  cases compareRows order a b <;> simp [Ordering.isLE]

theorem mayPrecede_trans {order : List SortKey} {rows : List Row} (h : Preordered order rows)
    {a b c : Row} (ha : a ∈ rows) (hb : b ∈ rows) (hc : c ∈ rows)
    (hab : MayPrecede order a b) (hbc : MayPrecede order b c) : MayPrecede order a c := by
  have cmp := transCmp_compareRows h
  exact cmp.isLE_trans (a := ⟨a, ha⟩) (b := ⟨b, hb⟩) (c := ⟨c, hc⟩) hab hbc

theorem not_mayPrecede_iff (order : List SortKey) (a b : Row) :
    ¬ MayPrecede order a b ↔ compareRows order b a = .lt := by
  unfold MayPrecede
  rw [compareRows_swap order a b]
  cases compareRows order a b <;> simp [Ordering.isLE]

/-! Sorting by insertion from the front, which the library has, and from the back. -/

/-- The rows in order, each put before the first that it may precede. -/
abbrev sorted (order : List SortKey) (rows : List Row) : List Row :=
  rows.insertionSort (MayPrecede order)

/-- Puts a row behind all that may precede it, up to the first that may not. -/
private def insertLast (order : List SortKey) (row : Row) : List Row → List Row
  | [] => [row]
  | other :: rest =>
      if MayPrecede order other row then other :: insertLast order row rest
      else row :: other :: rest

private theorem insertLast_append_of_lt {order : List SortKey} {row last : Row}
    (h : ¬ MayPrecede order last row) (rows : List Row) :
    insertLast order row (rows ++ [last]) = insertLast order row rows ++ [last] := by
  induction rows with
  | nil => simp [insertLast, h]
  | cons other rest ih =>
      by_cases ho : MayPrecede order other row <;> simp [insertLast, ho, ih]

private theorem insertLast_of_all {order : List SortKey} {row : Row} {rows : List Row}
    (h : ∀ other ∈ rows, MayPrecede order other row) :
    insertLast order row rows = rows ++ [row] := by
  induction rows with
  | nil => rfl
  | cons other rest ih =>
      have ho := h other List.mem_cons_self
      have hr := ih fun x hx => h x (List.mem_cons_of_mem _ hx)
      simp [insertLast, ho, hr]

/-- On rows in order, going back from the last and going on from the first find one place. -/
private theorem insertRow_reverse {order : List SortKey} {row : Row} {rows : List Row}
    (h : Preordered order (row :: rows)) (ordered : rows.Pairwise (MayPrecede order)) :
    (insertRow order row rows.reverse).reverse = insertLast order row rows := by
  induction rows using List.reverseRecOn with
  | nil => rfl
  | append_singleton rest last ih =>
      rw [List.pairwise_append] at ordered
      have fewer : Preordered order (row :: rest) :=
        h.mono fun x hx => by
          cases hx with
          | head => simp
          | tail _ hx => exact List.mem_cons_of_mem _ (List.mem_append_left _ hx)
      rw [List.reverse_append, List.reverse_singleton, List.singleton_append, insertRow]
      by_cases hlast : compareRows order row last = .lt
      · have before := (not_mayPrecede_iff order last row).mpr hlast
        rw [if_pos hlast, List.reverse_cons, ih fewer ordered.1, insertLast_append_of_lt before]
      · rw [if_neg hlast]
        have after : MayPrecede order last row := by
          by_contra no
          exact hlast ((not_mayPrecede_iff order last row).mp no)
        rw [insertLast_of_all]
        · simp
        · intro other ho
          cases List.mem_append.mp ho with
          | inl ho =>
              exact mayPrecede_trans h (by simp [ho]) (by simp) (by simp)
                (ordered.2.2 other ho last (by simp)) after
          | inr ho =>
              rw [List.mem_singleton.mp ho]
              exact after

/-- A row put in from the front and one put in from the back do not get in each other's way. -/
private theorem orderedInsert_insertLast {order : List SortKey} {a x : Row} {rows : List Row}
    (h : Preordered order (a :: x :: rows)) :
    (insertLast order x rows).orderedInsert (MayPrecede order) a =
      insertLast order x (rows.orderedInsert (MayPrecede order) a) := by
  induction rows with
  | nil => by_cases hax : MayPrecede order a x <;> simp [insertLast, hax]
  | cons b rest ih =>
      have hrest := ih (h.mono fun y hy => by
        simp only [List.mem_cons] at hy ⊢
        tauto)
      by_cases hab : MayPrecede order a b <;> by_cases hbx : MayPrecede order b x
      · have hax := mayPrecede_trans h (by simp) (by simp) (by simp) hab hbx
        simp [insertLast, hab, hbx, hax]
      · by_cases hax : MayPrecede order a x <;> simp [insertLast, hab, hbx, hax]
      · simp [insertLast, hab, hbx, hrest]
      · have hxb := (mayPrecede_total order b x).resolve_left hbx
        have hax : ¬ MayPrecede order a x := fun hax =>
          hab (mayPrecede_trans h (by simp) (by simp) (by simp) hax hxb)
        simp [insertLast, hab, hbx, hax]

theorem mem_sorted {order : List SortKey} {rows : List Row} {row : Row} :
    row ∈ sorted order rows ↔ row ∈ rows :=
  List.mem_insertionSort _

private theorem pairwise_orderedInsert {order : List SortKey} {row : Row} {rows : List Row}
    (h : Preordered order (row :: rows)) (ordered : rows.Pairwise (MayPrecede order)) :
    (rows.orderedInsert (MayPrecede order) row).Pairwise (MayPrecede order) := by
  induction rows with
  | nil => simp
  | cons other rest ih =>
      rw [List.pairwise_cons] at ordered
      by_cases ho : MayPrecede order row other
      · rw [List.orderedInsert_cons_of_le _ _ ho]
        refine List.pairwise_cons.mpr ⟨?_, List.pairwise_cons.mpr ordered⟩
        intro x hx
        cases hx with
        | head => exact ho
        | tail _ hx =>
            have member : x ∈ row :: other :: rest :=
              List.mem_cons_of_mem _ (List.mem_cons_of_mem _ hx)
            exact mayPrecede_trans h (by simp) (by simp) member ho (ordered.1 x hx)
      · rw [List.orderedInsert_of_not_le _ _ ho]
        have fewer := ih (h.mono fun x hx => by
          simp only [List.mem_cons] at hx ⊢
          tauto) ordered.2
        refine List.pairwise_cons.mpr ⟨?_, fewer⟩
        intro x hx
        obtain rfl | hx := (List.mem_orderedInsert _).mp hx
        · exact (mayPrecede_total order x other).resolve_left ho
        · exact ordered.1 x hx

theorem pairwise_sorted {order : List SortKey} {rows : List Row} (h : Preordered order rows) :
    (sorted order rows).Pairwise (MayPrecede order) := by
  induction rows with
  | nil => simp
  | cons row rest ih =>
      have hrest := ih (h.mono fun x hx => List.mem_cons_of_mem _ hx)
      refine pairwise_orderedInsert (h.mono ?_) hrest
      intro x hx
      cases hx with
      | head => simp
      | tail _ hx => exact List.mem_cons_of_mem _ (mem_sorted.mp hx)

private theorem sorted_append_singleton {order : List SortKey} {rows : List Row} {last : Row}
    (h : Preordered order (rows ++ [last])) :
    sorted order (rows ++ [last]) = insertLast order last (sorted order rows) := by
  induction rows with
  | nil => rfl
  | cons row rest ih =>
      have hrest := ih (h.mono fun x hx => List.mem_cons_of_mem _ hx)
      have both : Preordered order (row :: last :: sorted order rest) := by
        refine h.mono fun x hx => ?_
        simp only [List.mem_cons, mem_sorted] at hx
        simp only [List.cons_append, List.mem_cons, List.mem_append, List.not_mem_nil, or_false]
        tauto
      calc sorted order (row :: (rest ++ [last]))
          = (sorted order (rest ++ [last])).orderedInsert (MayPrecede order) row := rfl
        _ = (insertLast order last (sorted order rest)).orderedInsert (MayPrecede order) row := by
            rw [hrest]
        _ = insertLast order last ((sorted order rest).orderedInsert (MayPrecede order) row) :=
            orderedInsert_insertLast both

/-- The sort of the stores is the stable sort by insertion. -/
theorem sortRows_eq_sorted {order : List SortKey} {rows : List Row}
    (h : Preordered order rows) : sortRows order rows = sorted order rows := by
  induction rows using List.reverseRecOn with
  | nil => rfl
  | append_singleton rest last ih =>
      have fewer : Preordered order rest := h.mono fun x hx => List.mem_append_left _ hx
      have step : sortRows order (rest ++ [last]) =
          (insertRow order last (sortRows order rest).reverse).reverse := by
        simp [sortRows]
      have swapped : Preordered order (last :: sorted order rest) := by
        refine h.mono fun x hx => ?_
        simp only [List.mem_cons, mem_sorted] at hx
        simp only [List.mem_append, List.mem_singleton]
        tauto
      rw [step, ih fewer, insertRow_reverse swapped (pairwise_sorted fewer),
        sorted_append_singleton h]

private theorem insertRow_perm (order : List SortKey) (row : Row) (rows : List Row) :
    (insertRow order row rows).Perm (row :: rows) := by
  induction rows with
  | nil => exact .refl _
  | cons other rest ih =>
      simp only [insertRow]
      split
      · exact (ih.cons other).trans (.swap _ _ _)
      · exact .refl _

theorem sortRows_perm (order : List SortKey) (rows : List Row) :
    (sortRows order rows).Perm rows := by
  induction rows using List.reverseRecOn with
  | nil => exact .refl _
  | append_singleton rest last ih =>
      have step : sortRows order (rest ++ [last]) =
          (insertRow order last (sortRows order rest).reverse).reverse := by
        simp [sortRows]
      rw [step]
      have inserted := insertRow_perm order last (sortRows order rest).reverse
      have before : (last :: (sortRows order rest).reverse).Perm (last :: rest) :=
        ((List.reverse_perm _).trans ih).cons last
      exact (List.reverse_perm _).trans
        (inserted.trans (before.trans (List.perm_append_singleton _ _).symm))

private theorem filter_orderedInsert {order : List SortKey} {row : Row} {rows : List Row}
    (h : Preordered order (row :: rows)) (ordered : rows.Pairwise (MayPrecede order))
    (p : Row → Bool) :
    (rows.orderedInsert (MayPrecede order) row).filter p =
      if p row then (rows.filter p).orderedInsert (MayPrecede order) row
      else rows.filter p := by
  induction rows with
  | nil => by_cases hp : p row <;> simp [hp]
  | cons other rest ih =>
      have hrest := ih (h.mono fun x hx => by
        simp only [List.mem_cons] at hx ⊢
        tauto) (List.pairwise_cons.mp ordered).2
      by_cases ho : MayPrecede order row other
      · -- The row goes first, and first it stays among those that are left.
        have first : ∀ x ∈ (other :: rest).filter p, MayPrecede order row x := by
          intro x hx
          obtain rfl | hx := List.mem_cons.mp (List.mem_of_mem_filter hx)
          · exact ho
          · exact mayPrecede_trans h (by simp) (by simp) (by simp [hx]) ho
              ((List.pairwise_cons.mp ordered).1 x hx)
        have front : ((other :: rest).filter p).orderedInsert (MayPrecede order) row =
            row :: (other :: rest).filter p := by
          cases hl : (other :: rest).filter p with
          | nil => rfl
          | cons x xs => exact List.orderedInsert_cons_of_le _ _ (first x (by simp [hl]))
        rw [List.orderedInsert_cons_of_le _ _ ho, front, List.filter_cons]
      · rw [List.orderedInsert_of_not_le _ _ ho]
        by_cases hp : p other
        · rw [List.filter_cons_of_pos hp, hrest, List.filter_cons_of_pos hp]
          split
          · rw [List.orderedInsert_of_not_le _ _ ho]
          · rfl
        · rw [List.filter_cons_of_neg hp, hrest, List.filter_cons_of_neg hp]

/-- Leaving rows out before sorting is leaving them out afterwards. -/
theorem filter_sorted {order : List SortKey} {rows : List Row} (h : Preordered order rows)
    (p : Row → Bool) : (sorted order rows).filter p = sorted order (rows.filter p) := by
  induction rows with
  | nil => rfl
  | cons row rest ih =>
      have fewer : Preordered order rest := h.mono fun x hx => List.mem_cons_of_mem _ hx
      have sameRows : Preordered order (row :: sorted order rest) :=
        h.mono fun x hx => by simpa only [List.mem_cons, mem_sorted] using hx
      calc (sorted order (row :: rest)).filter p
          = if p row then ((sorted order rest).filter p).orderedInsert (MayPrecede order) row
            else (sorted order rest).filter p :=
              filter_orderedInsert sameRows (pairwise_sorted fewer) p
        _ = if p row then sorted order (row :: rest.filter p)
            else sorted order (rest.filter p) := by rw [ih fewer]; rfl
        _ = sorted order ((row :: rest).filter p) := by
            by_cases hp : p row <;> simp [hp]

end SortKey
end EntityGraph
