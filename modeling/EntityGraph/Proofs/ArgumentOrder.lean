import Mathlib.Data.List.Forall2
import Mathlib.Data.List.Perm.Basic
import EntityGraph.Proofs.ExactPlans
import EntityGraph.Proofs.LevelIsolation
import EntityGraph.Store.Memory

/-!
The order in which arguments are given. A level tests all its filters and has one limit and one
offset at most, so two requests are answered alike where at each node the same arguments stand in
another order. Only the arguments that order rows must stand to each other as they did, since the
first of them counts before the second.
-/

namespace EntityGraph

namespace ArgumentProtocol

/-- The key is the name of an argument that orders rows. -/
def Orders (p : ArgumentProtocol) (key : String) : Prop :=
  p.pagingName? .orderBy = some key ∨ p.pagingName? .orderByDesc = some key

instance (p : ArgumentProtocol) (key : String) : Decidable (p.Orders key) :=
  inferInstanceAs (Decidable (_ ∨ _))

/-- The same arguments, and those that order rows in the same order. -/
structure Reordered (p : ArgumentProtocol) (arguments arguments' : Row) : Prop where
  perm : arguments.Perm arguments'
  ordering : arguments.filter (p.Orders ·.1) = arguments'.filter (p.Orders ·.1)

end ArgumentProtocol

/-- The same nodes, each with the same arguments in an order that may be another. -/
inductive Selection.Reordered (p : ArgumentProtocol) : Selection → Selection → Prop
  | nil : Reordered p [] []
  | cons {name : String} {arguments arguments' : Row}
      {children children' rest rest' : Selection} :
      p.Reordered arguments arguments' → Reordered p children children' →
      Reordered p rest rest' →
      Reordered p (⟨name, arguments, children⟩ :: rest) (⟨name, arguments', children'⟩ :: rest')

namespace FetchPlan

/-- The plans say the same of their own levels, apart from the order of the filters. -/
structure SameLevel (p q : FetchPlan) : Prop where
  shownAs : p.shownAs = q.shownAs
  selected : p.selected? = q.selected?
  predicates : p.predicates.Perm q.predicates
  ordering : p.ordering = q.ordering
  limit : p.limit? = q.limit?
  offset : p.offset? = q.offset?

/-- The plans say the same at every level, apart from the order of the filters. -/
inductive Alike : FetchPlan → FetchPlan → Prop
  | level {p q : FetchPlan} :
      SameLevel p q → Dict.keys p.relations = Dict.keys q.relations →
      (∀ pair ∈ p.relations.zip q.relations, Alike pair.1.2 pair.2.2) → Alike p q

/-- The relations have the same names, and plans that are related. -/
abbrev Paired (related : FetchPlan → FetchPlan → Prop) :
    List (String × FetchPlan) → List (String × FetchPlan) → Prop :=
  List.Forall₂ fun a b => a.1 = b.1 ∧ related a.2 b.2

variable {related : FetchPlan → FetchPlan → Prop} {relations relations' : List (String × FetchPlan)}

theorem paired_iff : Paired related relations relations' ↔
    Dict.keys relations = Dict.keys relations' ∧
      ∀ pair ∈ relations.zip relations', related pair.1.2 pair.2.2 := by
  induction relations generalizing relations' with
  | nil => cases relations' <;> simp [Dict.keys]
  | cons first rest ih =>
      cases relations' with
      | nil => simp [Dict.keys]
      | cons first' rest' =>
          simp only [List.forall₂_cons, ih, Dict.keys, List.map_cons, List.cons.injEq,
            List.zip_cons_cons, List.forall_mem_cons]
          tauto

theorem limit?_eq (p : FetchPlan) :
    p.limit? = (p.modifiers.filterMap Modifier.limit?).getLast? := by
  rw [limit?, ← List.head?_filterMap, List.filterMap_reverse, List.head?_reverse]

theorem offset?_eq (p : FetchPlan) :
    p.offset? = (p.modifiers.filterMap Modifier.offset?).getLast? := by
  rw [offset?, ← List.head?_filterMap, List.filterMap_reverse, List.head?_reverse]

end FetchPlan

section Reading

variable {m : Type → Type} [Monad m]

/-- The source answers alike in whatever order a query has its filters. -/
def RowSource.FiltersInAnyOrder (source : RowSource m) : Prop :=
  ∀ (q : LevelQuery) (predicates : List Predicate), q.predicates.Perm predicates →
    source q = source { q with predicates := predicates }

theorem MemoryStore.filtersInAnyOrder_source (s : MemoryStore) : s.source.FiltersInAnyOrder := by
  intro q predicates perm
  have same : q.holds = { q with predicates := predicates }.holds := by
    funext row
    rw [LevelQuery.holds, LevelQuery.holds, perm.all_eq]
  unfold source LevelQuery.answer
  rw [same]

theorem Registry.expansion?_congr (r : Registry) (e : Entity) (name : String)
    {p q : FetchPlan} (same : p.shownAs = q.shownAs) :
    r.expansion? e name p = r.expansion? e name q := by
  simp only [Registry.expansion?, FetchPlan.outputName, same]

theorem Expansion.attach_congr (x : Expansion) {p q : FetchPlan} (same : p.SameLevel q) :
    x.attach p = x.attach q := by
  funext joined parents
  simp only [Expansion.attach, Expansion.shape, same.limit, same.offset]

/-- The plans say the same of their own levels, and every level that is fetched by one of them is
fetched by the other. -/
structure FetchPlan.FetchedAlike (source : RowSource m) (r : Registry) (p q : FetchPlan) :
    Prop where
  level : p.SameLevel q
  fetched : ∀ e key root, fetchLevel source r e key root p = fetchLevel source r e key root q

variable {source : RowSource m} {r : Registry}

theorem expansions_congr {relations relations' : List (String × FetchPlan)}
    (h : FetchPlan.Paired (FetchPlan.FetchedAlike source r) relations relations') (e : Entity) :
    r.expansions e relations = r.expansions e relations' := by
  unfold Registry.expansions
  induction h with
  | nil => rfl
  | @cons a b _ _ first _ ih =>
      obtain ⟨name, child⟩ := a
      obtain ⟨name', child'⟩ := b
      obtain ⟨rfl, alike⟩ := first
      have same : r.expansion? e name child = r.expansion? e name child' :=
        r.expansion?_congr e name alike.level.shownAs
      simp only [List.filterMap_cons, same, ih]

theorem attachAll_congr {relations relations' : List (String × FetchPlan)}
    (h : FetchPlan.Paired (FetchPlan.FetchedAlike source r) relations relations') (e : Entity)
    (rows : List Row) :
    attachAll source r e rows relations = attachAll source r e rows relations' := by
  induction h generalizing rows with
  | nil => rfl
  | @cons a b _ _ first _ ih =>
      obtain ⟨name, child⟩ := a
      obtain ⟨name', child'⟩ := b
      obtain ⟨rfl, alike⟩ := first
      simp only [attachAll, r.expansion?_congr e _ alike.level.shownAs, alike.fetched,
        Expansion.attach_congr _ alike.level, ih]

theorem fetchLevel_congr (anyOrder : source.FiltersInAnyOrder) {p q : FetchPlan}
    (same : p.SameLevel q)
    (below : FetchPlan.Paired (FetchPlan.FetchedAlike source r) p.relations q.relations)
    (e : Entity) (key : Option KeyFilter) (root : Bool) :
    fetchLevel source r e key root p = fetchLevel source r e key root q := by
  obtain ⟨shownAs, relations, modifiers⟩ := p
  obtain ⟨shownAs', relations', modifiers'⟩ := q
  have columns : FetchPlan.columnsOf ⟨shownAs, relations, modifiers⟩ e =
      FetchPlan.columnsOf ⟨shownAs', relations', modifiers'⟩ e := by
    rw [FetchPlan.columnsOf, FetchPlan.columnsOf, same.selected]
  unfold fetchLevel
  have predicates : ∀ q : LevelQuery,
      q.predicates = FetchPlan.predicates ⟨shownAs, relations, modifiers⟩ →
      source q = source { q with
        predicates := FetchPlan.predicates ⟨shownAs', relations', modifiers'⟩ } :=
    fun q h => anyOrder q _ (h ▸ same.predicates)
  simp only [columns, expansions_congr below, same.ordering, same.limit, same.offset,
    attachAll_congr below, predicates]

/-- Plans that say the same are read alike, level by level. -/
theorem FetchPlan.Alike.fetchedAlike (anyOrder : source.FiltersInAnyOrder) {p q : FetchPlan}
    (h : p.Alike q) : p.FetchedAlike source r q := by
  induction h with
  | level same keys _ ih =>
      exact ⟨same, fetchLevel_congr anyOrder same (FetchPlan.paired_iff.mpr ⟨keys, ih⟩)⟩

theorem fetchGraph_congr (anyOrder : source.FiltersInAnyOrder) {p q : FetchPlan}
    (h : p.Alike q) (entity : String) (scope : KeyScope) :
    fetchGraph source r entity scope p = fetchGraph source r entity scope q := by
  simp only [fetchGraph, (h.fetchedAlike anyOrder).fetched]

end Reading

namespace Compiler

variable (c : Compiler) {entity : Option Entity} {arguments arguments' : Row}

theorem modifiersOf_perm (perm : arguments.Perm arguments') :
    (c.modifiersOf entity arguments).Perm (c.modifiersOf entity arguments') :=
  perm.filterMap _

/-- Arguments that may come in any order leave a single modifier of a kind where it is. -/
theorem filterMap_modifiersOf_of_perm (named : c.protocol.WellNamed)
    (distinct : (Dict.keys arguments).Nodup) (perm : arguments.Perm arguments') {α : Type}
    (part : Modifier → Option α) (arg : PagingArg)
    (only : ∀ m, (part m).isSome = true → m.reserved? = some arg) :
    (c.modifiersOf entity arguments).filterMap part =
      (c.modifiersOf entity arguments').filterMap part := by
  have atMost : ((c.modifiersOf entity arguments).filterMap part).length ≤ 1 :=
    length_modifiersOf_le_one c named distinct part arg only
  have parts : ((c.modifiersOf entity arguments).filterMap part).Perm
      ((c.modifiersOf entity arguments').filterMap part) :=
    (c.modifiersOf_perm perm).filterMap part
  match found : (c.modifiersOf entity arguments).filterMap part with
  | [] =>
      rw [found] at parts
      exact (List.nil_perm.mp parts).symm
  | [x] =>
      rw [found] at parts
      exact List.singleton_perm.mp parts
  | _ :: _ :: _ =>
      rw [found] at atMost
      simp at atMost

/-- Only the arguments that order rows make sort keys. -/
theorem sortKeys_modifiersOf (named : c.protocol.WellNamed) :
    (c.modifiersOf entity arguments).filterMap Modifier.sortKey? =
      (c.modifiersOf entity (arguments.filter (c.protocol.Orders ·.1))).filterMap
        Modifier.sortKey? := by
  simp only [modifiersOf, List.filterMap_filterMap, List.filterMap_filter]
  refine List.filterMap_congr ?_
  intro entry _
  by_cases orders : c.protocol.Orders entry.1
  · simp [orders]
  · rw [if_neg (by simpa using orders)]
    refine (Option.bind_eq_none_iff.mpr ?_ :
      (c.modifierOf entity entry.1 entry.2).bind Modifier.sortKey? = none)
    intro m made
    cases m with
    | orderBy field descending =>
        have read := named.decode_eq_paging_iff.mp (decode_of_reserved c made rfl)
        cases descending
        · exact absurd (.inl read) orders
        · exact absurd (.inr read) orders
    | _ => rfl

/-- The levels select the same columns, and their relations are read alike. -/
structure Level.Alike (l l' : Level) : Prop where
  selected : l.selected = l'.selected
  relations : FetchPlan.Paired FetchPlan.Alike l.relations l'.relations

theorem Level.Alike.addColumn {l l' : Level} (h : l.Alike l') (name : String) :
    (l.addColumn name).Alike (l'.addColumn name) := by
  refine ⟨?_, by simpa using h.relations⟩
  unfold Level.addColumn
  rw [h.selected]
  split <;> simp [h.selected]

theorem Level.Alike.addRelation {l l' : Level} (h : l.Alike l') (name : String)
    {plan plan' : FetchPlan} (alike : plan.Alike plan') :
    (l.addRelation name plan).Alike (l'.addRelation name plan') :=
  ⟨h.selected, Dict.forall₂_insert (R := fun _ => FetchPlan.Alike) h.relations alike⟩

theorem assemble_alike (named : c.protocol.WellNamed) (distinct : (Dict.keys arguments).Nodup)
    (reordered : c.protocol.Reordered arguments arguments') {l l' : Level} (h : l.Alike l')
    (shownAs : Option String) :
    (c.assemble entity arguments shownAs l).Alike (c.assemble entity arguments' shownAs l') := by
  obtain ⟨keys, below⟩ := FetchPlan.paired_iff.mp h.relations
  refine .level ?_ keys below
  constructor
  case shownAs => rfl
  case selected => exact congrArg some h.selected
  case predicates => exact (c.modifiersOf_perm reordered.perm).filterMap _
  case ordering =>
    exact (c.sortKeys_modifiersOf named).trans
      (reordered.ordering ▸ (c.sortKeys_modifiersOf named).symm)
  case limit =>
    rw [FetchPlan.limit?_eq, FetchPlan.limit?_eq]
    refine congrArg List.getLast? ?_
    refine c.filterMap_modifiersOf_of_perm named distinct reordered.perm _ .limit ?_
    intro m h
    cases m with
    | limit => rfl
    | _ => cases h
  case offset =>
    rw [FetchPlan.offset?_eq, FetchPlan.offset?_eq]
    refine congrArg List.getLast? ?_
    refine c.filterMap_modifiersOf_of_perm named distinct reordered.perm _ .offset ?_
    intro m h
    cases m with
    | offset => rfl
    | _ => cases h

/-- A node does the same to two levels, whatever the order of its arguments. -/
theorem addNode_alike (named : c.protocol.WellNamed) {l l' : Level} (h : l.Alike l')
    (distinct : (Dict.keys arguments).Nodup)
    (reordered : c.protocol.Reordered arguments arguments') (name : String)
    {children children' : Selection} (empty : children.isEmpty = children'.isEmpty)
    (below : ∀ target, (c.addNodes target {} children).Alike (c.addNodes target {} children')) :
    (c.addNode entity l ⟨name, arguments, children⟩).Alike
      (c.addNode entity l' ⟨name, arguments', children'⟩) := by
  have nested : ∀ target shownAs,
      (c.assemble target arguments shownAs (c.addNodes target {} children)).Alike
        (c.assemble target arguments' shownAs (c.addNodes target {} children')) :=
    fun target => c.assemble_alike named distinct reordered (below target)
  cases entity with
  | none =>
      simp only [addNode, ← empty]
      split
      · exact h.addColumn name
      · exact h.addRelation name (nested none none)
  | some e =>
      simp only [addNode]
      split
      · exact h.addColumn name
      · exact h.addRelation _ (nested _ _)
      · exact h

theorem addNodes_alike (named : c.protocol.WellNamed) {nodes nodes' : Selection}
    (reordered : Selection.Reordered c.protocol nodes nodes') (keyed : Selection.Keyed nodes)
    (entity : Option Entity) {l l' : Level} (h : l.Alike l') :
    (c.addNodes entity l nodes).Alike (c.addNodes entity l' nodes') := by
  induction reordered generalizing entity l l' with
  | nil => exact h
  | @cons name arguments arguments' children children' rest rest' first inside _ below ih =>
      obtain ⟨distinct, keyed⟩ := keyed
      rw [List.forall_mem_cons] at distinct keyed
      have empty : children.isEmpty = children'.isEmpty := by cases inside <;> rfl
      refine ih (.level distinct.2 keyed.2) entity ?_
      exact c.addNode_alike named h distinct.1 first name empty
        fun target => below keyed.1 target ⟨rfl, .nil⟩

theorem compile_alike (named : c.protocol.WellNamed) {selection selection' : Selection}
    (reordered : Selection.Reordered c.protocol selection selection')
    (keyed : Selection.Keyed selection) (distinct : (Dict.keys arguments).Nodup)
    (outer : c.protocol.Reordered arguments arguments') (name : String) :
    (c.compile name selection arguments).Alike (c.compile name selection' arguments') :=
  c.assemble_alike named distinct outer
    (c.addNodes_alike named reordered keyed (c.target name) ⟨rfl, .nil⟩) none

end Compiler

/-- A request is answered alike in whatever order its arguments are given, at the root and at every
node, if those that order rows come in the same order. -/
theorem MemoryStore.select_reordered {o : QueryOptions} {protocol : ArgumentProtocol}
    (named : ArgumentProtocol.ofOptions o = .ok protocol) (registry : Option Registry)
    {selection selection' : Selection} (keyed : Selection.Keyed selection)
    (reordered : Selection.Reordered protocol selection selection') {arguments arguments' : Row}
    (distinct : (Dict.keys arguments).Nodup) (outer : protocol.Reordered arguments arguments')
    (r : Registry) (s : MemoryStore) (name : String) (scope : KeyScope) :
    let c : Compiler := ⟨registry, protocol⟩
    select r s name scope (c.compile name selection arguments) =
      select r s name scope (c.compile name selection' arguments') := by
  intro c
  have alike := c.compile_alike (ArgumentProtocol.wellNamed_ofOptions named) reordered keyed
    distinct outer name
  rw [select, select, fetchGraph_congr s.filtersInAnyOrder_source alike]

namespace Catalog

def twoCourses : MemoryStore :=
  [("Category", ⟨[[("id", .ofInt 1), ("name", .string "Systems")]], 1⟩),
    ("Course", ⟨[[("id", .ofInt 1), ("name", .string "Rust"), ("categoryId", .ofInt 1)],
      [("id", .ofInt 2), ("name", .string "Go"), ("categoryId", .ofInt 1)]], 2⟩)]

/-- The courses by name and then from the last to the first, with their categories. -/
def withCategory (arguments : Row) : Selection :=
  [.leaf "name", ⟨"category", arguments, [.leaf "name"]⟩]

theorem select_reordered_twoCourses :
    let nested : Row := [("idIn", .array [.ofInt 1]), ("offset", .ofInt 0)]
    let nested' : Row := [("offset", .ofInt 0), ("idIn", .array [.ofInt 1])]
    let outer : Row := [("limit", .ofInt 2), ("orderBy", .string "name"),
      ("nameLike", .string "%"), ("orderByDesc", .string "id"), ("idGt", .ofInt 0)]
    let outer' : Row := [("orderBy", .string "name"), ("orderByDesc", .string "id"),
      ("idGt", .ofInt 0), ("nameLike", .string "%"), ("limit", .ofInt 2)]
    let c : Compiler := ⟨some registry, .standard⟩
    ArgumentProtocol.ofOptions (.toggle true) = .ok .standard ∧
    Selection.Keyed (withCategory nested) ∧
    Selection.Reordered .standard (withCategory nested) (withCategory nested') ∧
    (Dict.keys outer).Nodup ∧ ArgumentProtocol.standard.Reordered outer outer' ∧
    twoCourses.select registry "Course" .all
        (c.compile "Course" (withCategory nested) outer) =
      twoCourses.select registry "Course" .all
        (c.compile "Course" (withCategory nested') outer') := by
  intro nested nested' outer outer' c
  have keyed : Selection.Keyed (withCategory nested) := by
    refine .level (by decide) ?_
    simp only [withCategory, List.forall_mem_cons]
    exact ⟨Selection.keyed_leaves [], Selection.keyed_leaves ["name"], nofun⟩
  have none : ArgumentProtocol.standard.Reordered [] [] := ⟨.nil, rfl⟩
  have below : Selection.Reordered .standard (withCategory nested) (withCategory nested') :=
    .cons none .nil (.cons ⟨.swap .., rfl⟩ (.cons none .nil .nil) .nil)
  have same : ArgumentProtocol.standard.Reordered outer outer' := by
    refine ⟨?_, rfl⟩
    have last : outer'.Perm (("limit", .ofInt 2) :: outer'.dropLast) :=
      List.perm_append_singleton _ outer'.dropLast
    refine (List.Perm.cons _ (.cons _ ?_)).trans last.symm
    exact (List.perm_append_singleton _ [_, _]).symm
  exact ⟨rfl, keyed, below, by decide, same,
    MemoryStore.select_reordered (o := .toggle true) rfl (some registry) keyed below (by decide)
      same registry twoCourses "Course" .all⟩

end Catalog
end EntityGraph
