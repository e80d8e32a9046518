import EntityGraph.Proofs.RootFields

/-!
The generated operations against the generated fields. Both are listed entity by entity under the
same conditions, so that the operations are found by the names of the fields. Of query fields with
one name the last says what is carried out, in the place of the first; a name of a mutation
belongs to one field only.
-/

namespace EntityGraph

namespace Blueprint

open Schema

variable {entities : List Entity} {o : Options} {b : Blueprint} {hooks : Hooks} {root : RootType}

/-- What is offered on each entity, in the order of the entities. -/
def rootPairs (b : Blueprint) (root : RootType) : List (OperationKind × Entity) :=
  b.registry.toList.flatMap fun e => (b.offered root e).map fun kind => (kind, e)

theorem mem_rootPairs {pair : OperationKind × Entity} :
    pair ∈ b.rootPairs root ↔ pair.2 ∈ b.registry.toList ∧ pair.1 ∈ b.offered root pair.2 := by
  obtain ⟨kind, e⟩ := pair
  simp [rootPairs]

theorem rootLines_eq_map (b : Blueprint) (root : RootType) :
    b.rootLines root = (b.rootPairs root).map fun pair => rootLine pair.1 pair.2 := by
  simp [rootLines_eq, rootPairs, List.map_flatMap, Function.comp_def]

theorem rootOperations_eq_map (b : Blueprint) (hooks : Hooks) (root : RootType) :
    b.rootOperations hooks root = (b.rootPairs root).map fun pair =>
      ((rootLine pair.1 pair.2).name, standardOperation hooks pair.1 pair.2) := by
  simp [rootOperations, rootPairs, List.map_flatMap, Function.comp_def]

/-- The read that a query field announces: that of one row by a type, of many by a list. -/
def announced? (hooks : Hooks) (line : FieldLine) : Option Operation :=
  match line.type with
  | .named entity => some (.standard ⟨.readOne, entity, hooks.readOne⟩)
  | .list (.named entity) => some (.standard ⟨.readMany, entity, hooks.readMany⟩)
  | _ => none

theorem reads_of_offered {e : Entity} {kind : OperationKind} (h : kind ∈ b.offered .query e) :
    kind = .readOne ∨ kind = .readMany := by
  dsimp only [offered] at h
  cases kind <;> split_ifs at h <;> simp at h ⊢

theorem announced?_rootLine {e : Entity} {kind : OperationKind} (h : kind ∈ b.offered .query e) :
    announced? hooks (rootLine kind e) = some (standardOperation hooks kind e) := by
  obtain rfl | rfl := reads_of_offered h <;> rfl

/-- The last query field of a name announces what is carried out under it. -/
theorem get?_queryResolvers (b : Blueprint) (hooks : Hooks) (types : Dict (Dict Operation))
    (name : String) :
    Dict.get? (b.queryResolvers { hooks := hooks, types := types }) name =
      ((b.rootLines .query).filter (·.name = name)).getLast?.bind (announced? hooks) := by
  rw [queryResolvers_eq, rootOperations_eq_map, Dict.get?_ofList_map, rootLines_eq_map,
    List.filter_map, List.getLast?_map, Option.bind_map]
  dsimp only [Function.comp_def]
  cases last : ((b.rootPairs .query).filter fun pair =>
      (rootLine pair.1 pair.2).name = name).getLast? with
  | none => rfl
  | some pair =>
      have member := (List.mem_filter.mp (List.mem_of_getLast? last)).1
      simp [announced?_rootLine (mem_rootPairs.mp member).2]

/-- How the names of mutations begin. -/
def mutationVerbs : List (OperationKind × String) :=
  [(.create, "create"), (.update, "update"), (.delete, "delete")]

theorem exists_verb_of_offered {e : Entity} {kind : OperationKind}
    (h : kind ∈ b.offered .mutation e) :
    ∃ verb, (kind, verb) ∈ mutationVerbs ∧ (rootLine kind e).name = verb ++ e.name := by
  obtain rfl | rfl | rfl := writes_of_offered h
  · exact ⟨"create", by decide, rfl⟩
  · exact ⟨"update", by decide, rfl⟩
  · exact ⟨"delete", by decide, rfl⟩

theorem eq_of_verbs {kind kind' : OperationKind} {verb verb' name name' : String}
    (h : (kind, verb) ∈ mutationVerbs) (h' : (kind', verb') ∈ mutationVerbs)
    (same : verb ++ name = verb' ++ name') : kind = kind' ∧ name = name' := by
  simp only [mutationVerbs, List.mem_cons, Prod.mk.injEq, List.not_mem_nil, or_false] at h h'
  obtain ⟨rfl, rfl⟩ | ⟨rfl, rfl⟩ | ⟨rfl, rfl⟩ := h <;>
    obtain ⟨rfl, rfl⟩ | ⟨rfl, rfl⟩ | ⟨rfl, rfl⟩ := h' <;>
    simp_all [← String.toList_inj]

theorem keys_mutationResolvers (accepted : ofEntities entities o = .ok b) (hooks : Hooks)
    (types : Dict (Dict Operation)) :
    Dict.keys (b.mutationResolvers { hooks := hooks, types := types }) =
      (b.rootLines .mutation).map (·.name) := by
  have distinct := nodup_names_mutation accepted
  rw [names_rootLines b hooks] at distinct
  rw [mutationResolvers_eq, Dict.ofList_of_nodup distinct, names_rootLines b hooks]

/-- A name that begins with a verb and is that of a mutation is bound to what the verb says, on
the entity that the rest names. -/
theorem get?_mutationResolvers (accepted : ofEntities entities o = .ok b) (hooks : Hooks)
    (types : Dict (Dict Operation)) {kind : OperationKind} {verb : String}
    (h : (kind, verb) ∈ mutationVerbs) {name : String}
    (key : verb ++ name ∈ (b.rootLines .mutation).map (·.name)) :
    Dict.get? (b.mutationResolvers { hooks := hooks, types := types }) (verb ++ name) =
      some (.standard ⟨kind, name, hooks.of kind⟩) := by
  have distinct := nodup_names_mutation accepted
  rw [names_rootLines b hooks] at distinct
  rw [rootLines_eq_map, List.map_map] at key
  obtain ⟨⟨own, e⟩, member, named⟩ := List.mem_map.mp key
  obtain ⟨listed, offers⟩ := mem_rootPairs.mp member
  obtain ⟨verb', h', begins⟩ := exists_verb_of_offered offers
  obtain ⟨rfl, rfl⟩ := eq_of_verbs h' h (begins.symm.trans named)
  rw [mutationResolvers_eq, Dict.ofList_of_nodup distinct]
  refine Dict.get?_of_mem distinct ?_
  rw [rootOperations_eq_map]
  exact List.mem_map.mpr ⟨_, member, Prod.ext named rfl⟩

/-- Where no resolvers take the place of generated ones, the queries are found by the names of the
query fields in their order, each where it comes first, and are what the last field of the name
announces. The mutations are found by the names of the mutation fields in their order, none of
which comes twice, and are what the verb in front of the entity's name says. -/
theorem resolvers_eq_document (accepted : ofEntities entities o = .ok b) (hooks : Hooks)
    (types : Dict (Dict Operation)) :
    let c : Customization := { hooks := hooks, types := types }
    let queries := queryLines b.registry b.options
    let mutations := mutationLines b.registry b.options
    Dict.keys (b.queryResolvers c) = (queries.map (·.name)).eraseDups ∧
    (∀ name, Dict.get? (b.queryResolvers c) name =
      (queries.filter (·.name = name)).getLast?.bind (announced? hooks)) ∧
    Dict.keys (b.mutationResolvers c) = mutations.map (·.name) ∧
    (mutations.map (·.name)).Nodup ∧
    (∀ name ∈ mutations.map (·.name), ∃ kind verb, (kind, verb) ∈ mutationVerbs ∧
      ∃ e ∈ b.registry.toList, name = verb ++ e.name) ∧
    ∀ kind verb, (kind, verb) ∈ mutationVerbs → ∀ name, verb ++ name ∈ mutations.map (·.name) →
      Dict.get? (b.mutationResolvers c) (verb ++ name) =
        some (.standard ⟨kind, name, hooks.of kind⟩) := by
  intro c queries mutations
  refine ⟨?_, get?_queryResolvers b hooks types, keys_mutationResolvers accepted hooks types,
    nodup_names_mutation accepted, ?_, fun kind verb h name key =>
      get?_mutationResolvers accepted hooks types h key⟩
  · rw [queryResolvers_eq, Dict.keys_ofList, ← names_rootLines]
    rfl
  · intro name key
    obtain ⟨line, declared, rfl⟩ := List.mem_map.mp key
    have member : line ∈ b.rootLines .mutation := declared
    obtain ⟨e, he, kind, offers, rfl⟩ := exists_offered_of_mem member
    obtain ⟨verb, h, begins⟩ := exists_verb_of_offered offers
    exact ⟨kind, verb, h, e, he, begins⟩

end Blueprint

namespace Catalog

def plant : Entity where
  name := "Plant"
  table := none
  fields := [("id", .scalar ⟨"integer"⟩)]
  relations := []
  api := {}

/-- One of these is asked for by the name of all plants. -/
def plants : Entity := { plant with name := "Plants" }

def garden : Blueprint := ⟨⟨[("Plant", plant), ("Plants", plants)]⟩, .standard, {}⟩

theorem resolvers_garden :
    Blueprint.ofEntities [plant, plants] {} = .ok garden ∧
    Dict.keys (garden.queryResolvers {}) = ["plant", "plants", "plantss"] ∧
    Dict.get? (garden.queryResolvers {}) "plants" = some (.standard ⟨.readOne, "Plants", none⟩) ∧
    Dict.get? (garden.mutationResolvers {}) "createPlant" =
      some (.standard ⟨.create, "Plant", none⟩) := by
  have accepted : Blueprint.ofEntities [plant, plants] {} = .ok garden := rfl
  obtain ⟨keys, queries, _, _, _, mutations⟩ := Blueprint.resolvers_eq_document accepted {} []
  have create : "create" ++ "Plant" ∈ (Schema.mutationLines garden.registry garden.options).map
      (·.name) := by decide +kernel
  have last : ((Schema.queryLines garden.registry garden.options).filter
      (·.name = "plants")).getLast? = some (Schema.rootLine .readOne plants) := by decide +kernel
  refine ⟨accepted, keys.trans (by decide +kernel), ?_,
    mutations .create "create" (by decide) "Plant" create⟩
  rw [queries, last]
  rfl

end Catalog
end EntityGraph
