import EntityGraph.Proofs.Compile

/-!
The shape that every compiled plan has: declared columns and relations, each once, and output
names that lead back to the relations they stand for. No output name is that of a column.
-/

namespace EntityGraph

namespace FetchPlan

/-- The names under which the relations of a level are shown. -/
def outputs (relations : List (String × FetchPlan)) : List String :=
  relations.map fun entry => entry.2.outputName entry.1

/-- The plan names columns and relations that the entity has, none twice, at every depth. -/
inductive Fits (r : Registry) : Entity → FetchPlan → Prop
  | level {e : Entity} {plan : FetchPlan} {fields : List String} :
      plan.selected? = some fields → fields.Nodup →
      (∀ column ∈ fields, e.hasScalar column = true) → (Dict.keys plan.relations).Nodup →
      (∀ entry ∈ plan.relations, ∃ rel,
        e.resolve? (entry.2.outputName entry.1) = some (.relation entry.1 rel)) →
      (∀ entry ∈ plan.relations, ∀ rel target, e.relation? entry.1 = some rel →
        r.get? rel.target = some target → Fits r target entry.2) →
      Fits r e plan

/-- Different relations are shown under different names, since a name resolves to one. -/
theorem nodup_outputs {e : Entity} {relations : List (String × FetchPlan)}
    (keys : (Dict.keys relations).Nodup)
    (resolved : ∀ entry ∈ relations, ∃ rel,
      e.resolve? (entry.2.outputName entry.1) = some (.relation entry.1 rel)) :
    (outputs relations).Nodup := by
  induction relations with
  | nil => simp [outputs]
  | cons entry rest ih =>
      simp only [Dict.keys, List.map_cons, List.nodup_cons] at keys
      refine List.nodup_cons.mpr
        ⟨?_, ih keys.2 fun other h => resolved other (List.mem_cons_of_mem _ h)⟩
      intro shared
      obtain ⟨other, member, same⟩ := List.mem_map.mp shared
      obtain ⟨rel, first⟩ := resolved entry List.mem_cons_self
      obtain ⟨rel', second⟩ := resolved other (List.mem_cons_of_mem _ member)
      rw [same, first] at second
      obtain ⟨names, _⟩ := ApiField.relation.inj (Option.some.inj second)
      exact keys.1 (names ▸ List.mem_map_of_mem member)

theorem not_hasScalar_of_mem_outputs {e : Entity} {relations : List (String × FetchPlan)}
    (resolved : ∀ entry ∈ relations, ∃ rel,
      e.resolve? (entry.2.outputName entry.1) = some (.relation entry.1 rel))
    {name : String} (h : name ∈ outputs relations) : e.hasScalar name = false := by
  obtain ⟨entry, member, rfl⟩ := List.mem_map.mp h
  obtain ⟨rel, found⟩ := resolved entry member
  exact Entity.not_hasScalar_of_resolve? found

end FetchPlan

namespace Compiler

variable {r : Registry} {protocol : ArgumentProtocol}

@[simp] theorem outputName_nested (c : Compiler) (name : String) (rel : Relation)
    (n : FieldNode) : (c.nested name rel n).outputName name = n.name := by
  by_cases h : n.name = name <;> simp [nested, assemble, FetchPlan.outputName, h]

theorem fits_assemble (e : Entity) (nodes : Selection) (arguments : Row)
    (shownAs : Option String) :
    ((⟨some r, protocol⟩ : Compiler).assemble (some e) arguments shownAs
      ((⟨some r, protocol⟩ : Compiler).addNodes (some e) {} nodes)).Fits r e := by
  refine .level (selected?_assemble ..) (nodup_selected_addNodes _ e {} nodes .nil) ?_
    (nodup_relations_addNodes _ e {} nodes .nil) ?_ ?_
  · intro column h
    obtain absent | ⟨_, _, _, _, found⟩ := (mem_selected_addNodes _ e {} nodes column).mp h
    · simp at absent
    · exact Entity.hasScalar_of_resolve? found
  · intro entry h
    obtain absent | ⟨n, _, rel, found, made⟩ := mem_relations_addNodes _ e h
    · simp at absent
    · rw [made, outputName_nested]
      exact ⟨rel, found⟩
  · intro entry h rel target hrel htarget
    obtain absent | ⟨n, member, own, found, made⟩ := mem_relations_addNodes _ e h
    · simp at absent
    · have same : own = rel :=
        Option.some.inj ((Entity.relation?_of_resolve? found).symm.trans hrel)
      have known : (⟨some r, protocol⟩ : Compiler).target own.target = some target := by
        rw [same]
        exact htarget
      rw [made, nested, known]
      exact fits_assemble target n.children n.arguments _
termination_by nodes
decreasing_by
  have := List.sizeOf_lt_of_mem member
  cases n
  simp only [FieldNode.mk.sizeOf_spec] at this ⊢
  omega

theorem fits_compile {name : String} {e : Entity} (registered : r.get? name = some e)
    (selection : Selection) (arguments : Row) :
    ((⟨some r, protocol⟩ : Compiler).compile name selection arguments).Fits r e := by
  have known : (⟨some r, protocol⟩ : Compiler).target name = some e := registered
  simp only [compile, known]
  exact fits_assemble e selection arguments none

end Compiler
end EntityGraph
