import EntityGraph.Proofs.Compile

/-!
Which of the requested scalars a compiled plan selects. Where several nodes of one level lead to
one relation the plan of the last takes the place of the others, so a scalar is selected exactly
when it is requested along last nodes. A tree without such nodes is answered completely.
-/

namespace EntityGraph

namespace FetchPlan

/-- The nested plan that is reached through the named relations. -/
def at? : FetchPlan → List String → Option FetchPlan
  | p, [] => some p
  | p, name :: path => (Dict.get? p.relations name).bind (·.at? path)

/-- The nested plan at the end of the path is there and selects the column. -/
def Selects (p : FetchPlan) (path : List String) (column : String) : Prop :=
  ∃ level fields, p.at? path = some level ∧ level.selected? = some fields ∧ column ∈ fields

theorem selects_cons (p : FetchPlan) (name : String) (path : List String) (column : String) :
    p.Selects (name :: path) column ↔
      ∃ child, Dict.get? p.relations name = some child ∧ child.Selects path column := by
  unfold Selects
  simp only [at?, Option.bind_eq_some_iff]
  constructor
  · intro h
    obtain ⟨level, fields, ⟨child, hchild, hlevel⟩, hfields, hcolumn⟩ := h
    exact ⟨child, hchild, level, fields, hlevel, hfields, hcolumn⟩
  · intro h
    obtain ⟨child, hchild, level, fields, hlevel, hfields, hcolumn⟩ := h
    exact ⟨level, fields, ⟨child, hchild, hlevel⟩, hfields, hcolumn⟩

end FetchPlan

namespace Registry

/-- The tree requests the scalar at the end of a path of relations: each node of a path of nodes
leads to the next relation, and the last node is the scalar. -/
inductive Requests (r : Registry) : Entity → Selection → List String → String → Prop
  | scalar {e : Entity} {nodes : Selection} {n : FieldNode} {type : ScalarType} :
      n ∈ nodes → e.resolve? n.name = some (.scalar type) → Requests r e nodes [] n.name
  | relation {e target : Entity} {nodes : Selection} {n : FieldNode} {name : String}
      {rel : Relation} {path : List String} {column : String} :
      n ∈ nodes → e.resolve? n.name = some (.relation name rel) →
      r.get? rel.target = some target → Requests r target n.children path column →
      Requests r e nodes (name :: path) column

/-- As `Requests`, where each node that leads to a relation is the last of its siblings that
lead there. -/
inductive RequestsLast (r : Registry) : Entity → Selection → List String → String → Prop
  | scalar {e : Entity} {nodes : Selection} {n : FieldNode} {type : ScalarType} :
      n ∈ nodes → e.resolve? n.name = some (.scalar type) → RequestsLast r e nodes [] n.name
  | relation {e target : Entity} {nodes : Selection} {n : FieldNode} {name : String}
      {rel : Relation} {path : List String} {column : String} :
      (nodes.filter (e.asksFor name)).getLast? = some n →
      e.resolve? n.name = some (.relation name rel) →
      r.get? rel.target = some target → RequestsLast r target n.children path column →
      RequestsLast r e nodes (name :: path) column

/-- No two siblings lead to one relation, at any level. -/
inductive Unrepeated (r : Registry) : Entity → Selection → Prop
  | level {e : Entity} {nodes : Selection} :
      (∀ name, (nodes.filter (e.asksFor name)).length ≤ 1) →
      (∀ n ∈ nodes, ∀ name rel target, e.resolve? n.name = some (.relation name rel) →
        r.get? rel.target = some target → Unrepeated r target n.children) →
      Unrepeated r e nodes

theorem Requests.last_of_unrepeated {r : Registry} {e : Entity} {nodes : Selection}
    {path : List String} {column : String} (h : r.Requests e nodes path column)
    (unrepeated : r.Unrepeated e nodes) : r.RequestsLast e nodes path column := by
  induction h with
  | scalar hn hs => exact .scalar hn hs
  | @relation e target nodes n name rel path column hn hs ht _ ih =>
      obtain ⟨once, below⟩ := unrepeated
      have member : n ∈ nodes.filter (e.asksFor name) :=
        List.mem_filter.mpr ⟨hn, Entity.asksFor_iff.mpr ⟨rel, hs⟩⟩
      obtain ⟨only, honly⟩ : ∃ m, nodes.filter (e.asksFor name) = [m] :=
        List.length_eq_one_iff.mp (Nat.le_antisymm (once name) (List.length_pos_of_mem member))
      rw [honly, List.mem_singleton] at member
      subst member
      exact .relation (by rw [honly]; rfl) hs ht (ih (below n hn name rel target hs ht))

end Registry

namespace Compiler

variable {entities : List Entity} {r : Registry} {protocol : ArgumentProtocol}

/-- The plan of any level, however it is shown and whatever its arguments are. -/
theorem selects_assemble_iff (accepted : Registry.ofList entities = .ok r)
    (path : List String) (column : String) {e : Entity} (has : r.Has e) (nodes : Selection)
    (arguments : Row) (shownAs : Option String) :
    ((⟨some r, protocol⟩ : Compiler).assemble (some e) arguments shownAs
      ((⟨some r, protocol⟩ : Compiler).addNodes (some e) {} nodes)).Selects path column ↔
      r.RequestsLast e nodes path column := by
  set c : Compiler := ⟨some r, protocol⟩
  induction path generalizing e nodes arguments shownAs with
  | nil =>
      have selects : (c.assemble (some e) arguments shownAs
          (c.addNodes (some e) {} nodes)).Selects [] column ↔
          column ∈ (c.addNodes (some e) {} nodes).selected := by
        simp [FetchPlan.Selects, FetchPlan.at?]
      rw [selects, mem_selected_addNodes]
      constructor
      · intro h
        cases h with
        | inl h => simp at h
        | inr h =>
            obtain ⟨n, hn, rfl, type, hs⟩ := h
            exact .scalar hn hs
      · intro h
        obtain ⟨hn, hs⟩ := h
        exact .inr ⟨_, hn, rfl, _, hs⟩
  | cons name path ih =>
      rw [FetchPlan.selects_cons, relations_assemble]
      constructor
      · intro h
        obtain ⟨child, hchild, selects⟩ := h
        obtain ⟨n, rel, last, hn, rfl⟩ :=
          (get?_relations_eq_some_iff c e nodes name child).mp hchild
        obtain ⟨target, htarget⟩ :=
          Registry.exists_target accepted has (Entity.relation?_of_resolve? hn)
        have hc : c.target rel.target = some target := htarget
        rw [nested, hc] at selects
        exact .relation last hn htarget ((ih ⟨_, htarget⟩ _ _ _).mp selects)
      · intro requested
        cases requested with
        | @relation _ target _ n _ rel _ _ last hn htarget below =>
            have hc : c.target rel.target = some target := htarget
            refine ⟨c.nested name rel n,
              (get?_relations_eq_some_iff c e nodes name _).mpr ⟨n, rel, last, hn, rfl⟩, ?_⟩
            rw [nested, hc]
            exact (ih ⟨_, htarget⟩ _ _ _).mpr below

/-- A compiled plan selects what is requested along last nodes, at every depth; without repeated
relations that is all that is requested. -/
theorem selects_compile (accepted : Registry.ofList entities = .ok r) {name : String}
    {e : Entity} (registered : r.get? name = some e) (protocol : ArgumentProtocol)
    (selection : Selection) (arguments : Row) :
    let plan := (⟨some r, protocol⟩ : Compiler).compile name selection arguments
    (∀ path column, plan.Selects path column ↔ r.RequestsLast e selection path column) ∧
    (r.Unrepeated e selection →
      ∀ path column, r.Requests e selection path column → plan.Selects path column) := by
  intro plan
  have known : (⟨some r, protocol⟩ : Compiler).target name = some e := registered
  have exact_path : ∀ path column,
      plan.Selects path column ↔ r.RequestsLast e selection path column := by
    intro path column
    simp only [plan, compile, known]
    exact selects_assemble_iff accepted path column ⟨name, registered⟩ selection arguments none
  refine ⟨exact_path, ?_⟩
  intro unrepeated path column requested
  exact (exact_path path column).mpr (requested.last_of_unrepeated unrepeated)

/-- Of two nodes for one relation, the scalars of the second are selected. -/
theorem selects_compile_course :
    Registry.ofList [Catalog.category, Catalog.course] = .ok Catalog.registry ∧
    Catalog.registry.get? "Course" = some Catalog.course ∧
    ((⟨some Catalog.registry, .standard⟩ : Compiler).compile "Course"
      [⟨"category", [], [.leaf "name"]⟩, ⟨"category", [], [.leaf "id"]⟩] []).Selects
        ["category"] "id" := by
  refine ⟨Catalog.accepted, rfl, ?_⟩
  have requested : Catalog.registry.RequestsLast Catalog.course
      [⟨"category", [], [.leaf "name"]⟩, ⟨"category", [], [.leaf "id"]⟩] ["category"] "id" :=
    .relation rfl rfl rfl (.scalar (n := .leaf "id") (List.mem_singleton.mpr rfl) rfl)
  exact ((selects_compile Catalog.accepted rfl .standard _ _).1 _ _).mpr requested

/-- The scalars of the first are requested too, and are not. -/
theorem requested_not_selected :
    Catalog.registry.Requests Catalog.course
      [⟨"category", [], [.leaf "name"]⟩, ⟨"category", [], [.leaf "id"]⟩] ["category"] "name" ∧
    ¬ ((⟨some Catalog.registry, .standard⟩ : Compiler).compile "Course"
      [⟨"category", [], [.leaf "name"]⟩, ⟨"category", [], [.leaf "id"]⟩] []).Selects
        ["category"] "name" := by
  constructor
  · exact .relation List.mem_cons_self rfl rfl
      (.scalar (n := .leaf "name") (List.mem_singleton.mpr rfl) rfl)
  · intro h
    obtain ⟨level, fields, reached, selected, member⟩ := h
    cases reached
    cases selected
    exact absurd member (by decide)

end Compiler
end EntityGraph
