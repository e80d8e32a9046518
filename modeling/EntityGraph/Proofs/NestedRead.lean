import EntityGraph.Proofs.Stitching
import EntityGraph.Proofs.StoredValues

/-!
The answer to a nested read is the list that reading row by row gives, for every plan that is
compiled and every scope. Stored values have to be equal where they join, which they are in every
state that is reached by writing what was read.
-/

namespace EntityGraph
namespace MemoryStore

variable {r : Registry} {s : MemoryStore} {e : Entity}

private theorem filter?_inScope (declared : r.ColumnsDeclared) (has : r.Has e) {scope : KeyScope}
    (keyed : scope = .all ∨ e.primaryField.isSome = true) :
    ∃ key, scope.filter? e = .ok key ∧ (∀ k ∈ key, e.hasScalar k.column = true) ∧
      ∀ row, key.all (·.holds row) = inScope e scope row := by
  cases hprimary : e.primaryField with
  | none =>
      obtain rfl : scope = .all := keyed.resolve_right (by simp [hprimary])
      exact ⟨none, rfl, by simp, fun row => rfl⟩
  | some primary =>
      have scalar := declared.primary e has primary hprimary
      cases scope with
      | all => exact ⟨none, rfl, by simp, fun row => rfl⟩
      | one key =>
          have filtered : KeyScope.filter? e (.one key) = .ok (some ⟨primary, [key]⟩) := by
            simp [KeyScope.filter?, KeyScope.filter?.keyed, hprimary]
          refine ⟨_, filtered, by simpa using scalar, ?_⟩
          intro row
          simp [KeyFilter.holds, inScope, hprimary]
      | many keys =>
          have filtered : KeyScope.filter? e (.many keys) = .ok (some ⟨primary, keys⟩) := by
            simp [KeyScope.filter?, KeyScope.filter?.keyed, hprimary]
          refine ⟨_, filtered, by simpa using scalar, ?_⟩
          intro row
          simp [KeyFilter.holds, inScope, hprimary]

/-- Of a plan that fits, what is fetched level by level is what is read row by row. -/
theorem fetchGraph_of_fits {entities : List Entity}
    (accepted : Registry.ofList entities = .ok r) (declared : r.ColumnsDeclared)
    (joins : s.JoinsEqual r) {name : String} (registered : r.get? name = some e)
    {plan : FetchPlan} (fits : plan.Fits r e) (ordered : s.OrderedFor r e plan)
    {scope : KeyScope} (keyed : scope = .all ∨ e.primaryField.isSome = true) :
    (fetchGraph s.source r name scope plan).run = .ok (s.readEach r e scope plan) := by
  obtain ⟨key, filtered, scalar, within⟩ := filter?_inScope declared ⟨name, registered⟩ keyed
  obtain ⟨level, fetched, full, rows, shown⟩ := fetches_of_fits accepted declared joins fits
    ⟨name, registered⟩ ordered key scalar true
  have reach : s.fetchedRows e key true plan =
      page plan.offset? plan.limit? (s.levelRows e plan (inScope e scope)) := by
    rw [fetchedRows, funext within]
    rfl
  have objects : level.rows.map (fun row => Json.object (stripColumns level.strip row)) =
      s.readEach r e scope plan := by
    rw [rows, readEach, ← reach, List.map_map]
    refine List.map_congr_left ?_
    intro row hrow
    rw [Function.comp, (shown row hrow).1]
  rw [fetchGraph, registered]
  simp only [filtered]
  have found : (ExceptT.mk (pure (.ok key)) : ExceptT RequestError Id (Option KeyFilter)) =
      pure key := rfl
  rw [found, pure_bind, fetched, pure_bind, objects]
  rfl

/-- A nested read that is fetched level by level is the one that is read row by row. -/
theorem fetchGraph_eq_readEach {entities : List Entity}
    (accepted : Registry.ofList entities = .ok r) (declared : r.ColumnsDeclared)
    (joins : s.JoinsEqual r) {name : String} (registered : r.get? name = some e)
    (protocol : ArgumentProtocol) (selection : Selection) (arguments : Row)
    (ordered : s.OrderedFor r e
      ((⟨some r, protocol⟩ : Compiler).compile name selection arguments))
    {scope : KeyScope} (keyed : scope = .all ∨ e.primaryField.isSome = true) :
    let plan := (⟨some r, protocol⟩ : Compiler).compile name selection arguments
    (fetchGraph s.source r name scope plan).run = .ok (s.readEach r e scope plan) :=
  fetchGraph_of_fits accepted declared joins registered
    (Compiler.fits_compile registered selection arguments) ordered keyed

/-- After calls that write what was read from texts, stored values join as they should. -/
theorem fetchGraph_run {entities : List Entity} (accepted : Registry.ofList entities = .ok r)
    (declared : r.ColumnsDeclared) {calls : List Call}
    (read : ∀ call ∈ calls, call.Writes FromText) {name : String}
    (registered : r.get? name = some e) {plan : FetchPlan} (fits : plan.Fits r e)
    (ordered : (run r [] calls).OrderedFor r e plan) {scope : KeyScope}
    (keyed : scope = .all ∨ e.primaryField.isSome = true) :
    (fetchGraph (run r [] calls).source r name scope plan).run =
      .ok ((run r [] calls).readEach r e scope plan) :=
  fetchGraph_of_fits accepted declared (joinsEqual_run read) registered fits ordered keyed

end MemoryStore

namespace Catalog

def categories : List Row := [[("id", .ofInt 1), ("name", .string "Systems")]]

def courses : List Row :=
  [[("id", .ofInt 1), ("name", .string "Rust"), ("categoryId", .ofInt 1)],
   [("id", .ofInt 2), ("name", .string "Go"), ("categoryId", .ofInt 1)]]

def store : MemoryStore := [("Category", ⟨categories, 1⟩), ("Course", ⟨courses, 2⟩)]

/-- The courses by name, each with the name of its category. -/
def coursePlan : FetchPlan :=
  (⟨some registry, .standard⟩ : Compiler).compile "Course"
    [.leaf "name", ⟨"category", [], [.leaf "name"]⟩] [("orderBy", .string "name")]

theorem eq_of_has {e : Entity} (h : registry.Has e) : e = category ∨ e = course := by
  obtain ⟨name, found⟩ := h
  have member := Dict.mem_of_get? found
  simp only [registry, List.mem_cons, Prod.mk.injEq, List.not_mem_nil, or_false] at member
  obtain ⟨_, rfl⟩ | ⟨_, rfl⟩ := member
  · exact .inl rfl
  · exact .inr rfl

theorem relation_eq {e : Entity} (h : registry.Has e) {name : String} {rel : Relation}
    (hrel : e.relation? name = some rel) :
    e = course ∧ name = "category" ∧
      rel = ⟨.one, "Category", ⟨"categoryId", "id"⟩, true, none⟩ := by
  obtain rfl | rfl := eq_of_has h
  · cases hrel
  · have member := Dict.mem_of_get? hrel
    simp only [course, List.mem_singleton, Prod.mk.injEq] at member
    exact ⟨rfl, member.1, member.2⟩

theorem joinColumn_eq {e : Entity} {column : String} (h : registry.JoinColumn e column) :
    e = course ∧ column = "categoryId" ∨ e = category ∧ column = "id" := by
  cases h with
  | near has hrel direct =>
      obtain ⟨rfl, rfl, rfl⟩ := relation_eq has hrel
      exact .inl ⟨rfl, rfl⟩
  | far has hrel htarget =>
      obtain ⟨rfl, rfl, rfl⟩ := relation_eq has hrel
      cases htarget
      exact .inr ⟨rfl, rfl⟩
  | middle has hrel through hlink hmiddle =>
      obtain ⟨rfl, rfl, rfl⟩ := relation_eq has hrel
      cases through

theorem columnsDeclared : registry.ColumnsDeclared := by
  constructor
  · intro e has column hprimary
    obtain rfl | rfl := eq_of_has has <;> cases hprimary <;> rfl
  · intro e column h
    obtain ⟨rfl, rfl⟩ | ⟨rfl, rfl⟩ := joinColumn_eq h <;> rfl

theorem joinValue_eq {v : Json} (h : store.JoinValue registry v) : v = .ofInt 1 := by
  obtain ⟨e, column, row, hcolumn, hrow, rfl⟩ := h
  obtain ⟨rfl, rfl⟩ | ⟨rfl, rfl⟩ := joinColumn_eq hcolumn
  · have member : row ∈ courses := hrow
    simp only [courses, List.mem_cons, List.not_mem_nil, or_false] at member
    obtain rfl | rfl := member <;> rfl
  · have member : row ∈ categories := hrow
    simp only [categories, List.mem_singleton] at member
    rw [member]
    rfl

theorem joinsEqual : store.JoinsEqual registry := by
  intro v w hv hw _
  rw [joinValue_eq hv, joinValue_eq hw]
  simp [Json.equal, Json.ofInt, Double.same]

theorem orderedFor : store.OrderedFor registry course coursePlan := by
  intro e' plan' reaches
  cases reaches with
  | root =>
      intro k hk
      have key : k = ⟨"name", false⟩ := List.mem_singleton.mp hk
      have names : ∀ v, (∃ row ∈ courses, v = Json.field row k.field) →
          v = .string "Rust" ∨ v = .string "Go" := by
        intro v h
        obtain ⟨row, hrow, rfl⟩ := h
        simp only [courses, List.mem_cons, List.not_mem_nil, or_false] at hrow
        obtain rfl | rfl := hrow
        · exact .inl (key ▸ rfl)
        · exact .inr (key ▸ rfl)
      constructor
      · intro a b ha hb
        obtain rfl | rfl := names a ha <;> obtain rfl | rfl := names b hb <;> decide
      · intro a b c ha hb hc
        obtain rfl | rfl := names a ha <;> obtain rfl | rfl := names b hb <;>
          obtain rfl | rfl := names c hc <;> decide
  | relation member hrel htarget below =>
      obtain ⟨_, rfl, rfl⟩ := relation_eq ⟨"Course", rfl⟩ hrel
      cases htarget
      have child := List.mem_singleton.mp member
      cases child
      cases below with
      | root => exact fun k hk => absurd hk (List.not_mem_nil)
      | relation member => exact absurd member (List.not_mem_nil)

/-- Two courses of one category, which is fetched once. -/
theorem fetchGraph_courses :
    registry.ColumnsDeclared ∧ store.JoinsEqual registry ∧
    store.OrderedFor registry course coursePlan ∧
    (fetchGraph store.source registry "Course" .all coursePlan).run = .ok
      [.object [("name", .string "Go"), ("category", .object [("name", .string "Systems")])],
        .object [("name", .string "Rust"),
          ("category", .object [("name", .string "Systems")])]] := by
  refine ⟨columnsDeclared, joinsEqual, orderedFor, ?_⟩
  exact MemoryStore.fetchGraph_eq_readEach accepted columnsDeclared joinsEqual rfl .standard
    [.leaf "name", ⟨"category", [], [.leaf "name"]⟩] [("orderBy", .string "name")] orderedFor
    (.inl rfl)

end Catalog
end EntityGraph
