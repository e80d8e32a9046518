import EntityGraph.Proofs.Registry
import EntityGraph.Plan.Compile

/-!
What one level of a compiled plan holds: the scalars that its nodes ask for, each once, and under
the name of each relation the plan of the last node that leads to it.
-/

namespace EntityGraph

namespace Entity

/-- The node leads to the named relation of the entity. -/
def asksFor (e : Entity) (relation : String) (n : FieldNode) : Bool :=
  match e.resolve? n.name with
  | some (.relation name _) => name = relation
  | _ => false

theorem asksFor_iff {e : Entity} {relation : String} {n : FieldNode} :
    e.asksFor relation n = true ↔ ∃ rel, e.resolve? n.name = some (.relation relation rel) := by
  unfold asksFor
  split
  · rename_i name rel h
    simp [h]
  · rename_i h
    simp only [Bool.false_eq_true, false_iff, not_exists]
    exact fun rel => h relation rel

theorem relation?_of_relationForField? {e : Entity} {field name : String} {rel : Relation}
    (h : e.relationForField? field = some (name, rel)) : e.relation? name = some rel := by
  unfold relationForField? at h
  split at h
  · obtain ⟨found, hfound, heq⟩ := Option.map_eq_some_iff.mp h
    cases heq
    exact hfound
  · simp at h

theorem relation?_of_resolve? {e : Entity} {field name : String} {rel : Relation}
    (h : e.resolve? field = some (.relation name rel)) : e.relation? name = some rel := by
  unfold resolve? at h
  split at h
  · simp at h
  · obtain ⟨api, hapi, heq⟩ := Option.map_eq_some_iff.mp h
    cases heq
    obtain ⟨source, _, hsource⟩ := List.mem_filterMap.mp (List.mem_of_find?_eq_some hapi)
    split at hsource
    · rename_i name r hfield
      split at hsource
      · cases hsource
        exact relation?_of_relationForField? hfield
      · simp at hsource
    · simp at hsource

theorem hasScalar_of_resolve? {e : Entity} {field : String} {type : ScalarType}
    (h : e.resolve? field = some (.scalar type)) : e.hasScalar field = true := by
  unfold resolve? at h
  split at h
  · rename_i found
    simp [hasScalar, found]
  · obtain ⟨_, _, heq⟩ := Option.map_eq_some_iff.mp h
    cases heq

theorem not_hasScalar_of_resolve? {e : Entity} {field name : String} {rel : Relation}
    (h : e.resolve? field = some (.relation name rel)) : e.hasScalar field = false := by
  unfold resolve? at h
  split at h
  · simp at h
  · rename_i missing
    simp [hasScalar, missing]

end Entity

namespace Compiler

/-- The plan of a node that leads to the relation. -/
def nested (c : Compiler) (name : String) (rel : Relation) (n : FieldNode) : FetchPlan :=
  c.assemble (c.target rel.target) n.arguments (if n.name = name then none else some n.name)
    (c.addNodes (c.target rel.target) {} n.children)

@[simp] theorem selected?_assemble (c : Compiler) (entity : Option Entity) (arguments : Row)
    (shownAs : Option String) (l : Level) :
    (c.assemble entity arguments shownAs l).selected? = some l.selected := rfl

@[simp] theorem relations_assemble (c : Compiler) (entity : Option Entity) (arguments : Row)
    (shownAs : Option String) (l : Level) :
    (c.assemble entity arguments shownAs l).relations = l.relations := rfl

namespace Level

@[simp] theorem relations_addColumn (l : Level) (name : String) :
    (l.addColumn name).relations = l.relations := by
  unfold addColumn
  split <;> rfl

@[simp] theorem selected_addRelation (l : Level) (name : String) (plan : FetchPlan) :
    (l.addRelation name plan).selected = l.selected := rfl

theorem mem_selected_addColumn {l : Level} {name s : String} :
    s ∈ (l.addColumn name).selected ↔ s ∈ l.selected ∨ name = s := by
  unfold addColumn
  split
  · rename_i present
    rw [List.contains_iff_mem] at present
    exact (or_iff_left_of_imp (fun h => h ▸ present)).symm
  · simp [eq_comm]

theorem nodup_selected_addColumn {l : Level} (h : l.selected.Nodup) (name : String) :
    (l.addColumn name).selected.Nodup := by
  unfold addColumn
  split
  · exact h
  · rename_i absent
    rw [List.contains_iff_mem] at absent
    refine List.nodup_append.mpr ⟨h, by simp, ?_⟩
    intro a ha b hb hab
    rw [List.mem_singleton] at hb
    exact absent (hb ▸ hab ▸ ha)

end Level

variable (c : Compiler) (e : Entity)

theorem addNode_eq (l : Level) (n : FieldNode) :
    c.addNode (some e) l n =
      match e.resolve? n.name with
      | some (.scalar _) => l.addColumn n.name
      | some (.relation name rel) => l.addRelation name (c.nested name rel n)
      | none => l := by
  obtain ⟨field, arguments, children⟩ := n
  simp only [addNode]
  cases e.resolve? field with
  | none => rfl
  | some found => cases found <;> rfl

/-- A node adds a column, adds the plan of a relation or is passed over. -/
theorem addNode_cases (l : Level) (n : FieldNode) :
    (∃ type, e.resolve? n.name = some (.scalar type) ∧
      c.addNode (some e) l n = l.addColumn n.name) ∨
    (∃ name rel, e.resolve? n.name = some (.relation name rel) ∧
      c.addNode (some e) l n = l.addRelation name (c.nested name rel n)) ∨
    (e.resolve? n.name = none ∧ c.addNode (some e) l n = l) := by
  rw [addNode_eq]
  cases e.resolve? n.name with
  | none => exact .inr (.inr ⟨rfl, rfl⟩)
  | some found =>
      cases found with
      | scalar type => exact .inl ⟨type, rfl, rfl⟩
      | relation name rel => exact .inr (.inl ⟨name, rel, rfl, rfl⟩)

theorem addNodes_append (entity : Option Entity) (l : Level) (before after : Selection) :
    c.addNodes entity l (before ++ after) =
      c.addNodes entity (c.addNodes entity l before) after := by
  induction before generalizing l with
  | nil => rfl
  | cons n rest ih => exact ih _

/-- A level selects the scalars that are asked for, and nothing else. -/
theorem mem_selected_addNodes (l : Level) (nodes : List FieldNode) (s : String) :
    s ∈ (c.addNodes (some e) l nodes).selected ↔
      s ∈ l.selected ∨ ∃ n ∈ nodes, n.name = s ∧ ∃ type, e.resolve? s = some (.scalar type) := by
  induction nodes generalizing l with
  | nil => simp [addNodes]
  | cons n rest ih =>
      have first : s ∈ (c.addNode (some e) l n).selected ↔
          s ∈ l.selected ∨ n.name = s ∧ ∃ type, e.resolve? s = some (.scalar type) := by
        obtain ⟨type, hn, step⟩ | ⟨name, rel, hn, step⟩ | ⟨hn, step⟩ := addNode_cases c e l n
        · rw [step, Level.mem_selected_addColumn]
          exact or_congr_right ⟨fun h => ⟨h, type, h ▸ hn⟩, fun h => h.1⟩
        · rw [step, Level.selected_addRelation]
          refine (or_iff_left ?_).symm
          intro h
          obtain ⟨rfl, type, hs⟩ := h
          simp [hn] at hs
        · rw [step]
          refine (or_iff_left ?_).symm
          intro h
          obtain ⟨rfl, type, hs⟩ := h
          simp [hn] at hs
      rw [addNodes, ih, first, or_assoc]
      simp

theorem nodup_selected_addNodes (l : Level) (nodes : List FieldNode) (h : l.selected.Nodup) :
    (c.addNodes (some e) l nodes).selected.Nodup := by
  induction nodes generalizing l with
  | nil => exact h
  | cons n rest ih =>
      refine ih _ ?_
      obtain ⟨_, _, step⟩ | ⟨_, _, _, step⟩ | ⟨_, step⟩ := addNode_cases c e l n
      · rw [step]
        exact Level.nodup_selected_addColumn h n.name
      · rwa [step]
      · rwa [step]

theorem nodup_relations_addNodes (l : Level) (nodes : List FieldNode)
    (h : (Dict.keys l.relations).Nodup) :
    (Dict.keys (c.addNodes (some e) l nodes).relations).Nodup := by
  induction nodes generalizing l with
  | nil => exact h
  | cons n rest ih =>
      refine ih _ ?_
      obtain ⟨_, _, step⟩ | ⟨_, _, _, step⟩ | ⟨_, step⟩ := addNode_cases c e l n
      · rwa [step, Level.relations_addColumn]
      · rw [step]
        exact Dict.nodup_keys_insert h _ _
      · rwa [step]

theorem mem_relations_addNodes {l : Level} {nodes : List FieldNode}
    {entry : String × FetchPlan} (h : entry ∈ (c.addNodes (some e) l nodes).relations) :
    entry ∈ l.relations ∨ ∃ n ∈ nodes, ∃ rel,
      e.resolve? n.name = some (.relation entry.1 rel) ∧ entry.2 = c.nested entry.1 rel n := by
  induction nodes generalizing l with
  | nil => exact .inl h
  | cons n rest ih =>
      obtain h | ⟨m, hm, found⟩ := ih h
      · obtain ⟨_, _, step⟩ | ⟨name, rel, hn, step⟩ | ⟨_, step⟩ := addNode_cases c e l n
        · exact .inl (by rwa [step, Level.relations_addColumn] at h)
        · rw [step] at h
          obtain rfl | h := Dict.mem_insert h
          · exact .inr ⟨n, by simp, rel, hn, rfl⟩
          · exact .inl h
        · exact .inl (by rwa [step] at h)
      · exact .inr ⟨m, List.mem_cons_of_mem _ hm, found⟩

/-- Under a relation's name stands the plan of the last node that leads to it. -/
theorem get?_relations_addNodes (l : Level) (nodes : List FieldNode) {name : String}
    {rel : Relation} (h : e.relation? name = some rel) :
    Dict.get? (c.addNodes (some e) l nodes).relations name =
      ((nodes.filter (e.asksFor name)).getLast?.map (c.nested name rel)).or
        (Dict.get? l.relations name) := by
  induction nodes generalizing l with
  | nil => simp [addNodes]
  | cons n rest ih =>
      rw [addNodes, ih]
      by_cases hn : e.asksFor name n = true
      · obtain ⟨own, resolved⟩ := Entity.asksFor_iff.mp hn
        have same : own = rel :=
          Option.some.inj ((Entity.relation?_of_resolve? resolved).symm.trans h)
        have step : c.addNode (some e) l n = l.addRelation name (c.nested name rel n) := by
          obtain ⟨_, hr, _⟩ | ⟨_, _, hr, step⟩ | ⟨hr, _⟩ := addNode_cases c e l n
          · simp [resolved] at hr
          · rw [resolved] at hr
            cases hr
            rwa [same] at step
          · simp [resolved] at hr
        rw [List.filter_cons_of_pos hn, step, Level.addRelation, Dict.get?_insert, if_pos rfl]
        cases hl : (rest.filter (e.asksFor name)).getLast? with
        | none =>
            rw [List.getLast?_eq_none_iff] at hl
            simp [hl]
        | some last => simp [List.getLast?_cons, hl]
      · rw [List.filter_cons_of_neg hn]
        congr 1
        obtain ⟨_, _, step⟩ | ⟨other, own, hr, step⟩ | ⟨_, step⟩ := addNode_cases c e l n
        · rw [step, Level.relations_addColumn]
        · have apart : other ≠ name := by
            intro same
            subst same
            exact hn (Entity.asksFor_iff.mpr ⟨own, hr⟩)
          rw [step, Level.addRelation, Dict.get?_insert, if_neg apart]
        · rw [step]

theorem get?_relations_eq_some_iff (nodes : List FieldNode) (name : String)
    (child : FetchPlan) :
    Dict.get? (c.addNodes (some e) {} nodes).relations name = some child ↔
      ∃ n rel, (nodes.filter (e.asksFor name)).getLast? = some n ∧
        e.resolve? n.name = some (.relation name rel) ∧ c.nested name rel n = child := by
  constructor
  · intro h
    obtain absent | ⟨m, _, rel, hm, _⟩ := mem_relations_addNodes c e (Dict.mem_of_get? h)
    · simp at absent
    have hrel : e.relation? name = some rel := Entity.relation?_of_resolve? hm
    rw [get?_relations_addNodes c e {} nodes hrel] at h
    simp only [Dict.get?, Option.or_none, Option.map_eq_some_iff] at h
    obtain ⟨n, last, rfl⟩ := h
    have asks := (List.mem_filter.mp (List.mem_of_getLast? last)).2
    obtain ⟨own, hn⟩ := Entity.asksFor_iff.mp asks
    have same : own = rel := Option.some.inj ((Entity.relation?_of_resolve? hn).symm.trans hrel)
    exact ⟨n, rel, last, same ▸ hn, rfl⟩
  · intro h
    obtain ⟨n, rel, last, hn, rfl⟩ := h
    rw [get?_relations_addNodes c e {} nodes (Entity.relation?_of_resolve? hn), last]
    rfl

end Compiler
end EntityGraph
