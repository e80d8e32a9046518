import EntityGraph.Proofs.ArgumentNames
import EntityGraph.Proofs.PlanShape

/-!
What stands on every level of a compiled plan: the scalars that its nodes ask for and the relations
that they lead to, each once and in the order of the nodes, and modifiers that name declared columns
and have operands of the form that their operators work on.
-/

namespace EntityGraph

namespace FilterOp

/-- The operands that the operator works on: lists for the list operators, a boolean for the test
for null, and a single value for the others. -/
def Takes (op : FilterOp) (operand : Json) : Prop :=
  match op with
  | .isIn | .notIn => ∃ items, operand = .array items
  | .isNull => ∃ b, operand = .bool b
  | _ => operand ≠ .null ∧ ∀ items, operand ≠ .array items

theorem takes_of_normalize {op : FilterOp} {v operand : Json}
    (h : op.normalize v = some operand) : op.Takes operand := by
  cases op with
  | isNull =>
      cases v with
      | null => exact ⟨true, by simpa [normalize] using h.symm⟩
      | bool b => exact ⟨b, by simpa [normalize] using h.symm⟩
      | _ => cases h
  | isIn | notIn =>
      cases v with
      | null => cases h
      | array items => exact ⟨items, (Option.some.inj h).symm⟩
      | _ => exact ⟨_, (Option.some.inj h).symm⟩
  | _ =>
      cases v with
      | null => cases h
      | array items => cases h
      | _ => exact Option.some.inj h ▸ ⟨nofun, nofun⟩

end FilterOp

namespace Entity

/-- The names of the nodes that resolve to scalars. -/
def askedScalars (e : Entity) (nodes : Selection) : List String :=
  nodes.filterMap fun n =>
    match e.resolve? n.name with
    | some (.scalar _) => some n.name
    | _ => none

/-- The relations that the nodes lead to. -/
def askedRelations (e : Entity) (nodes : Selection) : List String :=
  nodes.filterMap fun n =>
    match e.resolve? n.name with
    | some (.relation name _) => some name
    | _ => none

/-- Only relations that are exposed are found by the names of clients. -/
theorem exposed_of_resolve? {e : Entity} {field name : String} {rel : Relation}
    (h : e.resolve? field = some (.relation name rel)) :
    rel.exposed = true ∧ ⟨field, name, rel⟩ ∈ e.apiRelations := by
  unfold resolve? at h
  split at h
  · cases h
  · obtain ⟨a, found, same⟩ := Option.map_eq_some_iff.mp h
    cases same
    obtain rfl : a.apiName = field := by simpa using List.find?_some found
    have member := List.mem_of_find?_eq_some found
    obtain ⟨source, _, made⟩ := List.mem_filterMap.mp member
    split at made
    · split at made
      · cases made
        exact ⟨by assumption, member⟩
      · cases made
    · cases made

end Entity

/-- The reserved argument that makes the modifier. -/
def Modifier.reserved? : Modifier → Option PagingArg
  | .orderBy _ descending => some (if descending then .orderByDesc else .orderBy)
  | .limit _ => some .limit
  | .offset _ => some .offset
  | _ => none

namespace Compiler

variable (c : Compiler) (e : Entity)

theorem selected_addNodes (l : Level) (nodes : Selection) :
    (c.addNodes (some e) l nodes).selected =
      l.selected ++ ((e.askedScalars nodes).removeAll l.selected).eraseDups := by
  induction nodes generalizing l with
  | nil => simp [addNodes, Entity.askedScalars, List.removeAll]
  | cons n rest ih =>
      rw [addNodes, ih]
      obtain ⟨type, hn, step⟩ | ⟨name, rel, hn, step⟩ | ⟨hn, step⟩ := addNode_cases c e l n
      · have added : (l.addColumn n.name).selected =
            if n.name ∈ l.selected then l.selected else l.selected ++ [n.name] := by
          unfold Level.addColumn
          by_cases present : n.name ∈ l.selected <;> simp [present]
        have asked : e.askedScalars (n :: rest) = n.name :: e.askedScalars rest := by
          simp [Entity.askedScalars, hn]
        rw [step, added, asked, Dict.append_new_names]
      · have asked : e.askedScalars (n :: rest) = e.askedScalars rest := by
          simp [Entity.askedScalars, hn]
        rw [step, asked, Level.selected_addRelation]
      · have asked : e.askedScalars (n :: rest) = e.askedScalars rest := by
          simp [Entity.askedScalars, hn]
        rw [step, asked]

theorem keys_relations_addNodes (l : Level) (nodes : Selection) :
    Dict.keys (c.addNodes (some e) l nodes).relations =
      Dict.keys l.relations ++
        ((e.askedRelations nodes).removeAll (Dict.keys l.relations)).eraseDups := by
  induction nodes generalizing l with
  | nil => simp [addNodes, Entity.askedRelations, List.removeAll]
  | cons n rest ih =>
      rw [addNodes, ih]
      obtain ⟨type, hn, step⟩ | ⟨name, rel, hn, step⟩ | ⟨hn, step⟩ := addNode_cases c e l n
      · have asked : e.askedRelations (n :: rest) = e.askedRelations rest := by
          simp [Entity.askedRelations, hn]
        rw [step, asked, Level.relations_addColumn]
      · have asked : e.askedRelations (n :: rest) = name :: e.askedRelations rest := by
          simp [Entity.askedRelations, hn]
        rw [step, asked, Level.addRelation, Dict.keys_insert, Dict.append_new_names]
      · have asked : e.askedRelations (n :: rest) = e.askedRelations rest := by
          simp [Entity.askedRelations, hn]
        rw [step, asked]

/-- What an argument can add to a level: a filter, an order or a page, each on a column that may be
named and under the name that stands for it. -/
theorem modifierOf_cases {entity : Option Entity} {key : String} {value : Json} {m : Modifier}
    (h : c.modifierOf entity key value = some m) :
    (∃ field op operand, c.protocol.decode key = .filter field op ∧ knows entity field = true ∧
      op.normalize value = some operand ∧ m = .filter ⟨field, op, operand⟩) ∨
    (∃ field descending,
      c.protocol.decode key = .paging (if descending then .orderByDesc else .orderBy) ∧
      knows entity field = true ∧ m = .orderBy field descending) ∨
    (∃ n, c.protocol.decode key = .paging .limit ∧ m = .limit n) ∨
    (∃ n, c.protocol.decode key = .paging .offset ∧ m = .offset n) := by
  have ordered : ∀ descending, modifierOf.orderOf entity value descending = some m →
      ∃ field, knows entity field = true ∧ m = .orderBy field descending := by
    intro descending h
    unfold modifierOf.orderOf at h
    split at h
    · split at h
      · cases h
        exact ⟨_, by assumption, rfl⟩
      · cases h
    · cases h
  unfold modifierOf at h
  split at h
  · rename_i field op read
    split at h
    · rename_i known
      obtain ⟨operand, normal, rfl⟩ := Option.map_eq_some_iff.mp h
      exact .inl ⟨field, op, operand, read, known, normal, rfl⟩
    · cases h
  · rename_i read
    obtain ⟨field, known, rfl⟩ := ordered false h
    exact .inr (.inl ⟨field, false, read, known, rfl⟩)
  · rename_i read
    obtain ⟨field, known, rfl⟩ := ordered true h
    exact .inr (.inl ⟨field, true, read, known, rfl⟩)
  · rename_i read
    obtain ⟨n, _, rfl⟩ := Option.map_eq_some_iff.mp h
    exact .inr (.inr (.inl ⟨n, read, rfl⟩))
  · rename_i read
    obtain ⟨n, _, rfl⟩ := Option.map_eq_some_iff.mp h
    exact .inr (.inr (.inr ⟨n, read, rfl⟩))
  · cases h

theorem exists_argument_of_mem {entity : Option Entity} {arguments : Row} {m : Modifier}
    (h : m ∈ c.modifiersOf entity arguments) :
    ∃ key value, (key, value) ∈ arguments ∧ c.modifierOf entity key value = some m := by
  obtain ⟨⟨key, value⟩, member, made⟩ := List.mem_filterMap.mp h
  exact ⟨key, value, member, made⟩

theorem decode_of_reserved {entity : Option Entity} {key : String} {value : Json} {m : Modifier}
    (made : c.modifierOf entity key value = some m) {arg : PagingArg}
    (h : m.reserved? = some arg) : c.protocol.decode key = .paging arg := by
  obtain ⟨_, _, _, _, _, _, rfl⟩ | ⟨_, _, read, _, rfl⟩ | ⟨_, read, rfl⟩ | ⟨_, read, rfl⟩ :=
    modifierOf_cases c made
  · cases h
  · exact Option.some.inj h ▸ read
  · exact Option.some.inj h ▸ read
  · exact Option.some.inj h ▸ read

/-- A level has at most one modifier of a kind that one reserved argument makes. -/
theorem length_modifiersOf_le_one (named : c.protocol.WellNamed) {entity : Option Entity}
    {arguments : Row} (distinct : (Dict.keys arguments).Nodup) {α : Type}
    (part : Modifier → Option α) (arg : PagingArg)
    (only : ∀ m, (part m).isSome = true → m.reserved? = some arg) :
    ((c.modifiersOf entity arguments).filterMap part).length ≤ 1 := by
  rw [modifiersOf, List.filterMap_filterMap]
  refine Dict.length_filterMap_le_one distinct (c.protocol.pagingName? arg) ?_
  intro entry _ kept
  obtain ⟨x, hx⟩ := Option.isSome_iff_exists.mp kept
  obtain ⟨m, hm, hpart⟩ := Option.bind_eq_some_iff.mp hx
  exact named.decode_eq_paging_iff.mp
    (decode_of_reserved c hm (only m (Option.isSome_of_eq_some hpart)))

end Compiler

namespace FetchPlan

/-- What one level of a plan holds for the nodes that ask for it: a single selection, in front, of
the scalars that they ask for, the relations that they lead to, and modifiers that can be used. -/
structure ExactLevel (e : Entity) (nodes : Selection) (plan : FetchPlan) : Prop where
  selection : ∃ others, plan.modifiers = .select (e.askedScalars nodes).eraseDups :: others ∧
    ∀ m ∈ others, m.selected? = none
  columns : ∀ fields, plan.selected? = some fields → fields.Nodup
  relations : Dict.keys plan.relations = (e.askedRelations nodes).eraseDups
  once : (Dict.keys plan.relations).Nodup
  predicates : ∀ p ∈ plan.predicates, e.hasScalar p.field = true ∧ p.op.Takes p.value
  ordering : ∀ k ∈ plan.ordering, e.hasScalar k.field = true
  limits : (plan.modifiers.filterMap Modifier.limit?).length ≤ 1
  offsets : (plan.modifiers.filterMap Modifier.offset?).length ≤ 1
  orders : ∀ descending, (plan.ordering.filter (·.descending = descending)).length ≤ 1

/-- The node is the last of its siblings that lead to the relation, which clients may see and which
has a target. -/
structure Leads (c : Compiler) (e : Entity) (nodes : Selection) (name : String) (n : FieldNode)
    (rel : Relation) (target : Entity) : Prop where
  last : (nodes.filter (e.asksFor name)).getLast? = some n
  resolved : e.resolve? n.name = some (.relation name rel)
  exposed : rel.exposed = true
  offered : ⟨n.name, name, rel⟩ ∈ e.apiRelations
  registered : c.target rel.target = some target

/-- The plan is exact at every level. Under each relation stands what compiling the last node that
leads there yields for the relation's target, shown under the name of this node. -/
inductive Exact (c : Compiler) : Entity → Selection → FetchPlan → Prop
  | level {e : Entity} {nodes : Selection} {plan : FetchPlan} :
      ExactLevel e nodes plan →
      (∀ entry ∈ plan.relations, ∃ n rel target, Leads c e nodes entry.1 n rel target ∧
        entry.2.outputName entry.1 = n.name ∧
        { entry.2 with shownAs := none } = c.compile rel.target n.children n.arguments) →
      (∀ entry ∈ plan.relations, ∀ n rel target, Leads c e nodes entry.1 n rel target →
        Exact c target n.children entry.2) →
      Exact c e nodes plan

end FetchPlan

/-- No arguments of a node come twice under one name, at any depth. -/
inductive Selection.Keyed : Selection → Prop
  | level {nodes : Selection} :
      (∀ n ∈ nodes, (Dict.keys n.arguments).Nodup) → (∀ n ∈ nodes, Selection.Keyed n.children) →
      Selection.Keyed nodes

theorem Selection.keyed_leaves (names : List String) :
    Selection.Keyed (names.map FieldNode.leaf) := by
  have made : ∀ n ∈ names.map FieldNode.leaf, n.arguments = [] ∧ n.children = [] := by
    intro n h
    obtain ⟨name, _, rfl⟩ := List.mem_map.mp h
    exact ⟨rfl, rfl⟩
  refine .level ?_ ?_
  · intro n h
    rw [(made n h).1]
    exact .nil
  · intro n h
    rw [(made n h).2]
    exact .level nofun nofun

namespace Compiler

variable {entities : List Entity} {r : Registry} {protocol : ArgumentProtocol}

/-- No argument selects columns. -/
theorem selected?_of_mem (c : Compiler) {entity : Option Entity} {arguments : Row} {m : Modifier}
    (h : m ∈ c.modifiersOf entity arguments) : m.selected? = none := by
  obtain ⟨key, value, _, made⟩ := exists_argument_of_mem c h
  obtain ⟨_, _, _, _, _, _, rfl⟩ | ⟨_, _, _, _, rfl⟩ | ⟨_, _, rfl⟩ | ⟨_, _, rfl⟩ :=
    modifierOf_cases c made <;> rfl

theorem predicate_of_mem (c : Compiler) {e : Entity} {arguments : Row} {p : Predicate}
    (h : .filter p ∈ c.modifiersOf (some e) arguments) :
    e.hasScalar p.field = true ∧ p.op.Takes p.value := by
  obtain ⟨key, value, _, made⟩ := exists_argument_of_mem c h
  obtain ⟨field, op, operand, _, known, normal, same⟩ | ⟨_, _, _, _, same⟩ | ⟨_, _, same⟩ |
    ⟨_, _, same⟩ := modifierOf_cases c made <;> cases same
  exact ⟨known, FilterOp.takes_of_normalize normal⟩

theorem column_of_mem (c : Compiler) {e : Entity} {arguments : Row} {field : String}
    {descending : Bool} (h : .orderBy field descending ∈ c.modifiersOf (some e) arguments) :
    e.hasScalar field = true := by
  obtain ⟨key, value, _, made⟩ := exists_argument_of_mem c h
  obtain ⟨_, _, _, _, _, _, same⟩ | ⟨_, _, _, known, same⟩ | ⟨_, _, same⟩ | ⟨_, _, same⟩ :=
    modifierOf_cases c made <;> cases same
  exact known

theorem exactLevel_assemble (c : Compiler) (named : c.protocol.WellNamed) (e : Entity)
    (nodes : Selection) {arguments : Row} (distinct : (Dict.keys arguments).Nodup)
    (shownAs : Option String) :
    FetchPlan.ExactLevel e nodes
      (c.assemble (some e) arguments shownAs (c.addNodes (some e) {} nodes)) where
  selection := by
    refine ⟨c.modifiersOf (some e) arguments, ?_, fun m => selected?_of_mem c⟩
    simp [assemble, selected_addNodes, List.removeAll]
  columns := by
    intro fields selected
    cases selected
    exact nodup_selected_addNodes c e {} nodes .nil
  relations := by
    rw [relations_assemble, keys_relations_addNodes]
    simp [Dict.keys, List.removeAll]
  once := nodup_relations_addNodes c e {} nodes .nil
  predicates := by
    intro p hp
    obtain ⟨m, hm, same⟩ := List.mem_filterMap.mp hp
    cases m <;> cases same
    exact predicate_of_mem c ((List.mem_cons.mp hm).resolve_left (by simp))
  ordering := by
    intro k hk
    obtain ⟨m, hm, same⟩ := List.mem_filterMap.mp hk
    cases m <;> cases same
    exact column_of_mem c ((List.mem_cons.mp hm).resolve_left (by simp))
  limits := by
    refine length_modifiersOf_le_one c named distinct Modifier.limit? .limit ?_
    intro m h
    cases m with
    | limit => rfl
    | _ => cases h
  offsets := by
    refine length_modifiersOf_le_one c named distinct Modifier.offset? .offset ?_
    intro m h
    cases m with
    | offset => rfl
    | _ => cases h
  orders := by
    intro descending
    let directed := fun m : Modifier => m.sortKey?.filter (·.descending = descending)
    rw [FetchPlan.ordering, List.filter_filterMap]
    refine length_modifiersOf_le_one c named distinct directed
      (if descending then .orderByDesc else .orderBy) ?_
    intro m h
    cases m with
    | orderBy field own =>
        have same : own = descending := by simpa [directed, Modifier.sortKey?] using h
        rw [same]
        rfl
    | _ => cases h

/-- Every compiled level is exact, and so are those below it. -/
theorem exact_assemble (accepted : Registry.ofList entities = .ok r)
    (named : protocol.WellNamed) {nodes : Selection} (keyed : Selection.Keyed nodes) {e : Entity}
    (has : r.Has e) {arguments : Row} (distinct : (Dict.keys arguments).Nodup)
    (shownAs : Option String) :
    FetchPlan.Exact ⟨some r, protocol⟩ e nodes
      ((⟨some r, protocol⟩ : Compiler).assemble (some e) arguments shownAs
        ((⟨some r, protocol⟩ : Compiler).addNodes (some e) {} nodes)) := by
  induction keyed generalizing e arguments shownAs with
  | @level nodes distinctBelow _ ih =>
      set c : Compiler := ⟨some r, protocol⟩
      -- Each entry is what one of the nodes makes, and which one the name and the node tell.
      have entries : ∀ entry ∈ (c.addNodes (some e) {} nodes).relations, ∃ n rel,
          (nodes.filter (e.asksFor entry.1)).getLast? = some n ∧
          e.resolve? n.name = some (.relation entry.1 rel) ∧ entry.2 = c.nested entry.1 rel n := by
        intro entry h
        have found := Dict.get?_of_mem (nodup_relations_addNodes c e {} nodes .nil) h
        obtain ⟨n, rel, last, resolved, made⟩ := (get?_relations_eq_some_iff c e nodes _ _).mp found
        exact ⟨n, rel, last, resolved, made.symm⟩
      refine .level (exactLevel_assemble c named e nodes distinct shownAs) ?_ ?_
      · intro entry h
        obtain ⟨n, rel, last, resolved, made⟩ := entries entry h
        obtain ⟨exposed, offered⟩ := Entity.exposed_of_resolve? resolved
        obtain ⟨target, registered⟩ :=
          Registry.exists_target accepted has (Entity.relation?_of_resolve? resolved)
        refine ⟨n, rel, target, ⟨last, resolved, exposed, offered, registered⟩, ?_, ?_⟩
        · rw [made, outputName_nested]
        · rw [made]
          rfl
      · intro entry h n rel target leads
        obtain ⟨m, own, last, resolved, made⟩ := entries entry h
        obtain rfl : m = n := Option.some.inj (last.symm.trans leads.last)
        obtain rfl : own = rel := by
          have same := resolved.symm.trans leads.resolved
          cases same
          rfl
        have member : m ∈ nodes := (List.mem_filter.mp (List.mem_of_getLast? last)).1
        rw [made, nested, leads.registered]
        exact ih m member ⟨_, leads.registered⟩ (distinctBelow m member) _

/-- The plan that is compiled for a registered entity is exact at every level. -/
theorem exact_compile (accepted : Registry.ofList entities = .ok r) {o : QueryOptions}
    (named : ArgumentProtocol.ofOptions o = .ok protocol) {name : String} {e : Entity}
    (registered : r.get? name = some e) {selection : Selection} (keyed : Selection.Keyed selection)
    {arguments : Row} (distinct : (Dict.keys arguments).Nodup) :
    FetchPlan.Exact ⟨some r, protocol⟩ e selection
      ((⟨some r, protocol⟩ : Compiler).compile name selection arguments) := by
  have known : (⟨some r, protocol⟩ : Compiler).target name = some e := registered
  simp only [compile, known]
  exact exact_assemble accepted (ArgumentProtocol.wellNamed_ofOptions named) keyed
    ⟨name, registered⟩ distinct none

/-- Two nodes lead to one relation, with arguments of their own. -/
def twoCategories : Selection :=
  [⟨"category", [("limit", .ofInt 2), ("nameIn", .string "Systems")], [.leaf "name"]⟩,
    .leaf "name",
    ⟨"category", [("orderByDesc", .string "name")], [.leaf "id", .leaf "id"]⟩]

theorem keyed_twoCategories : Selection.Keyed twoCategories := by
  refine .level (by decide) ?_
  simp only [twoCategories, List.forall_mem_cons]
  exact ⟨Selection.keyed_leaves ["name"], Selection.keyed_leaves [],
    Selection.keyed_leaves ["id", "id"], nofun⟩

theorem exact_compile_twoCategories :
    Registry.ofList [Catalog.category, Catalog.course] = .ok Catalog.registry ∧
    ArgumentProtocol.ofOptions (.toggle true) = .ok .standard ∧
    Catalog.registry.get? "Course" = some Catalog.course ∧
    Selection.Keyed twoCategories ∧
    (Dict.keys [("nameLike", Json.string "Intro"), ("offset", .ofInt 1)]).Nodup ∧
    FetchPlan.Exact ⟨some Catalog.registry, .standard⟩ Catalog.course twoCategories
      ((⟨some Catalog.registry, .standard⟩ : Compiler).compile "Course" twoCategories
        [("nameLike", .string "Intro"), ("offset", .ofInt 1)]) :=
  ⟨Catalog.accepted, rfl, rfl, keyed_twoCategories, by decide,
    exact_compile Catalog.accepted (o := .toggle true) rfl rfl keyed_twoCategories (by decide)⟩

end Compiler
end EntityGraph
