import EntityGraph.Proofs.Keys
import EntityGraph.Proofs.Ordering

/-!
Sorting where values of several kinds meet. Numbers, texts and truth values are compared among
themselves only; values of different kinds tie, and so does what has no order at all. Two values
that differ therefore cannot stand with a third of another kind: it ties with both. The values of
a column are in order exactly where, nulls aside, they are of one kind or all tie.
-/

namespace EntityGraph
namespace Json

/-- What is compared with its own kind. -/
inductive Kind where
  | number
  | text
  | truth

def kind? : Json → Option Kind
  | .number _ => some .number
  | .string _ => some .text
  | .bool _ => some .truth
  | .null | .array _ | .object _ => none

/-- Nulls aside, the values are of one kind, or no two of them can be told apart. -/
def Uniform (P : Json → Prop) : Prop :=
  (∃ k, ∀ v, P v → v.isNull = false → v.kind? = some k) ∨
    ∀ a b, P a → P b → a.isNull = false → b.isNull = false → sortOrder a b = .eq

variable {a b c : Json} {P : Json → Prop}

theorem sortOrder_of_present (ha : a.isNull = false) (hb : b.isNull = false) :
    sortOrder a b = (compare? a b).getD .eq := by
  simp only [sortOrder, ha, hb]

theorem compare?_eq_none (apart : a.kind? ≠ b.kind?) : compare? a b = none := by
  cases a <;> cases b <;> first | rfl | exact absurd rfl apart

theorem exists_kind_of_compare? {o : Ordering} (h : compare? a b = some o) :
    ∃ k, a.kind? = some k ∧ b.kind? = some k := by
  cases a <;> cases b <;> first | cases h; done | exact ⟨_, rfl, rfl⟩

theorem sortOrder_self (a : Json) : sortOrder a a = .eq := by
  have swapped := sortOrder_swap a a
  cases h : sortOrder a a with
  | eq => rfl
  | lt | gt =>
      rw [h] at swapped
      cases swapped

/-- In one kind the order is that of the doubles, of the texts or of the truth values. -/
theorem isLE_trans_of_kind {k : Kind} (ha : a.kind? = some k) (hb : b.kind? = some k)
    (hc : c.kind? = some k) (ab : (sortOrder a b).isLE) (bc : (sortOrder b c).isLE) :
    (sortOrder a c).isLE := by
  cases a <;> cases ha <;> cases b <;> cases hb <;> cases c <;> cases hc
  · exact Std.TransOrd.isLE_trans ab bc
  · exact Std.TransOrd.isLE_trans (α := Int) ab bc
  · exact Std.TransOrd.isLE_trans ab bc

/-- Null comes before everything, so it is never in the way. -/
theorem isLE_trans_of_present
    (present : a.isNull = false → b.isNull = false → c.isNull = false →
      (sortOrder a b).isLE → (sortOrder b c).isLE → (sortOrder a c).isLE)
    (ab : (sortOrder a b).isLE) (bc : (sortOrder b c).isLE) : (sortOrder a c).isLE := by
  cases ha : a.isNull with
  | true => cases hc : c.isNull <;> simp [sortOrder, ha, hc, Ordering.isLE]
  | false =>
      cases hb : b.isNull with
      | true => simp [sortOrder, ha, hb, Ordering.isLE] at ab
      | false =>
          cases hc : c.isNull with
          | true => simp [sortOrder, hb, hc, Ordering.isLE] at bc
          | false => exact present ha hb hc ab bc

theorem totalPreorderOn_of_uniform (h : Uniform P) : TotalPreorderOn P := by
  constructor
  · intro a b _ _
    rw [sortOrder_swap a b]
    cases sortOrder a b <;> simp [Ordering.isLE]
  · intro a b c pa pb pc
    apply isLE_trans_of_present
    intro ha hb hc ab bc
    cases h with
    | inl kinds =>
        obtain ⟨k, same⟩ := kinds
        exact isLE_trans_of_kind (same a pa ha) (same b pb hb) (same c pc hc) ab bc
    | inr tie =>
        rw [tie a c pa pc ha hc]
        rfl

theorem compare?_of_lt (ha : a.isNull = false) (hb : b.isNull = false)
    (ordered : sortOrder a b = .lt) : compare? a b = some .lt := by
  rw [sortOrder_of_present ha hb] at ordered
  cases compared : compare? a b with
  | none =>
      rw [compared] at ordered
      cases ordered
  | some o =>
      rw [compared] at ordered
      exact congrArg some ordered

/-- A value of another kind ties with both of two that differ, which would let the later come
before the earlier. -/
theorem kind?_eq_of_lt (h : TotalPreorderOn P) (pa : P a) (pb : P b) (pc : P c)
    (ha : a.isNull = false) (hb : b.isNull = false) (hc : c.isNull = false)
    (differ : sortOrder a b = .lt) : c.kind? = a.kind? := by
  obtain ⟨k, ka, kb⟩ := exists_kind_of_compare? (compare?_of_lt ha hb differ)
  rw [ka]
  by_contra other
  have first : sortOrder b c = .eq := by
    rw [sortOrder_of_present hb hc, compare?_eq_none fun same => other (same ▸ kb)]
    rfl
  have second : sortOrder c a = .eq := by
    rw [sortOrder_of_present hc ha, compare?_eq_none fun same => other (same.trans ka)]
    rfl
  have back := h.trans b c a pb pc pa (by rw [first]; rfl) (by rw [second]; rfl)
  rw [sortOrder_swap a b, differ] at back
  cases back

theorem uniform_of_totalPreorderOn (h : TotalPreorderOn P) : Uniform P := by
  by_cases tie : ∀ a b, P a → P b → a.isNull = false → b.isNull = false → sortOrder a b ≠ .lt
  · right
    intro a b pa pb ha hb
    have there := tie a b pa pb ha hb
    have back := tie b a pb pa hb ha
    rw [sortOrder_swap a b] at back
    cases ordered : sortOrder a b with
    | eq => rfl
    | lt => exact absurd ordered there
    | gt =>
        rw [ordered] at back
        exact absurd rfl back
  · left
    push Not at tie
    obtain ⟨a, b, pa, pb, ha, hb, differ⟩ := tie
    obtain ⟨k, ka, _⟩ := exists_kind_of_compare? (compare?_of_lt ha hb differ)
    refine ⟨k, fun v pv hv => ?_⟩
    rw [← ka]
    exact kind?_eq_of_lt h pa pb pv ha hb hv differ

theorem totalPreorderOn_iff_uniform : TotalPreorderOn P ↔ Uniform P :=
  ⟨uniform_of_totalPreorderOn, totalPreorderOn_of_uniform⟩

/-- The values of a column, null for a row without one. -/
def InColumn (rows : List Row) (column : String) (v : Json) : Prop :=
  ∃ row ∈ rows, v = field row column

end Json

namespace SortKey

/-- The order of rows by one column is that of its values. -/
theorem compareRows_singleton (column : String) (a b : Row) :
    compareRows [⟨column, false⟩] a b =
      (Json.field a column).sortOrder (Json.field b column) := by
  rw [compareRows_cons]
  cases h : compareBy ⟨column, false⟩ a b <;> exact h.symm

/-- Rows are put in order by all lists of some columns exactly where each column is in order. -/
theorem transCmp_compareRows_iff {columns : List String} {rows : List Row} :
    (∀ order : List SortKey, (∀ k ∈ order, k.field ∈ columns) →
        Std.TransCmp fun a b : { row // row ∈ rows } => compareRows order a.1 b.1) ↔
      ∀ column ∈ columns, Json.TotalPreorderOn (Json.InColumn rows column) := by
  constructor
  · intro all column member
    have cmp := all [⟨column, false⟩] (List.forall_mem_singleton.mpr member)
    simp only [compareRows_singleton] at cmp
    constructor
    · intro a b _ _
      rw [Json.sortOrder_swap a b]
      cases a.sortOrder b <;> simp [Ordering.isLE]
    · intro a b c ha hb hc ab bc
      obtain ⟨rowA, inA, rfl⟩ := ha
      obtain ⟨rowB, inB, rfl⟩ := hb
      obtain ⟨rowC, inC, rfl⟩ := hc
      exact cmp.isLE_trans (a := ⟨rowA, inA⟩) (b := ⟨rowB, inB⟩) (c := ⟨rowC, inC⟩) ab bc
  · intro columns order within
    exact transCmp_compareRows fun k hk => columns k.field (within k hk)

end SortKey

namespace Json

/-- Two values always compare the same way from both sides, and a value ties with itself. The order
is transitive on a set of values exactly where, nulls aside, they are of one kind or all tie. So
rows are put in order by every list of some columns exactly where each of the columns is such. -/
theorem sortOrder_consistent_iff (P : Json → Prop) (columns : List String) (rows : List Row) :
    (∀ a b, sortOrder b a = (sortOrder a b).swap) ∧
    (∀ a, sortOrder a a = .eq) ∧
    (TotalPreorderOn P ↔ Uniform P) ∧
    ((∀ order : List SortKey, (∀ k ∈ order, k.field ∈ columns) →
        Std.TransCmp fun a b : { row // row ∈ rows } => SortKey.compareRows order a.1 b.1) ↔
      ∀ column ∈ columns, Uniform (InColumn rows column)) := by
  refine ⟨sortOrder_swap, sortOrder_self, totalPreorderOn_iff_uniform, ?_⟩
  rw [SortKey.transCmp_compareRows_iff]
  simp only [totalPreorderOn_iff_uniform]

end Json

namespace Catalog
open MemoryStore

/-- Categories with numbers for names, but for the one between them. -/
def ranked : List MemoryStore.Call :=
  [.insert "Category" [("name", .ofInt 1)],
   .insert "Category" [("name", .string "Web")],
   .insert "Category" [("name", .ofInt 0)]]

/-- One ties with a text and the text with zero, yet one comes after zero. A store takes all three
into one column. -/
theorem one_text_zero :
    ¬ (∀ a b c : Json, (a.sortOrder b).isLE → (b.sortOrder c).isLE → (a.sortOrder c).isLE) ∧
    ¬ Std.TransCmp fun a b : { row // row ∈ ((run registry [] ranked).table "Category").rows } =>
      SortKey.compareRows [⟨"name", false⟩] a.1 b.1 := by
  have zero_before : ¬ ((Json.ofInt 1).sortOrder (.ofInt 0)).isLE = true := by decide +kernel
  constructor
  · intro trans
    exact zero_before (trans (.ofInt 1) (.string "Web") (.ofInt 0) rfl rfl)
  · intro cmp
    let row (id : Int) (name : Json) : Row := [("name", name), ("id", .ofInt id)]
    have stored : ((run registry [] ranked).table "Category").rows =
        [row 1 (.ofInt 1), row 2 (.string "Web"), row 3 (.ofInt 0)] := rfl
    rw [stored] at cmp
    have ordered := cmp.isLE_trans (a := ⟨row 1 (.ofInt 1), by simp⟩)
      (b := ⟨row 2 (.string "Web"), by simp⟩) (c := ⟨row 3 (.ofInt 0), by simp⟩)
      (by decide +kernel) (by decide +kernel)
    exact absurd ordered (by decide +kernel)

end Catalog
end EntityGraph
