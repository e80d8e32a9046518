import Mathlib.Data.List.Nodup
import Mathlib.Data.List.Pairwise
import EntityGraph.Proofs.ArgumentNames
import EntityGraph.Resolver.Map

/-!
The generated fields of the root types. Each of them is one default operation on one entity. The
document declares it and the resolvers carry it out under the same conditions and the same name, so
where the names are distinct the two agree.
-/

namespace EntityGraph

/-- Lists made of the members of a list without repetition are together without repetition when
each is, and those of different members have nothing in common. -/
theorem nodup_flatMap_iff {α β : Type} {items : List α} (distinct : items.Nodup) (f : α → List β) :
    (items.flatMap f).Nodup ↔
      (∀ a ∈ items, (f a).Nodup) ∧
        ∀ a ∈ items, ∀ b ∈ items, a ≠ b → List.Disjoint (f a) (f b) := by
  rw [List.nodup_flatMap]
  refine and_congr_right fun _ => ⟨?_, ?_⟩
  · intro apart a ha b hb different
    have : Std.Symm (Function.onFun List.Disjoint f) := ⟨fun _ _ h _ hb ha => h ha hb⟩
    exact apart.forall ha hb different
  · intro apart
    exact distinct.pairwise_of_forall_ne apart

/-- The types whose fields a request begins with. -/
inductive RootType where
  | query
  | mutation

def RootType.title : RootType → String
  | .query => "Query"
  | .mutation => "Mutation"

namespace Schema

/-- The generated field of an operation on the entity. -/
def rootLine (kind : OperationKind) (e : Entity) : FieldLine :=
  let keys := e.primaryField.toList
  match kind with
  | .readOne => ⟨e.camelName, keys.map fun key => ⟨key, keyType⟩, .named e.name⟩
  | .readMany =>
      ⟨e.pluralName, keys.map fun key => ⟨key ++ "Array", .list (.named "Int")⟩,
        .list (.named e.name)⟩
  | .create =>
      ⟨"create" ++ e.name, [⟨e.camelName, .nonNull (.named e.createInputName)⟩],
        .nonNull (.named e.name)⟩
  | .update =>
      ⟨"update" ++ e.name, (keys.map fun key => ⟨key, keyType⟩) ++
        [⟨e.camelName, .nonNull (.named e.updateInputName)⟩], .nonNull (.named e.name)⟩
  | .delete => ⟨"delete" ++ e.name, keys.map fun key => ⟨key, keyType⟩, .named "Boolean"⟩

end Schema

namespace Blueprint

open Schema

/-- The operations on the entity that have a field in the root type, in the order of the fields. -/
def offered (b : Blueprint) (root : RootType) (e : Entity) : List OperationKind :=
  match root with
  | .query =>
      if b.options.queryOptions.areEnabled && e.api.defaultQueries then
        (if e.primaryField.isSome then [.readOne] else []) ++ [.readMany]
      else []
  | .mutation =>
      let allowed := b.options.mutationOptions
      if e.api.defaultMutations && e.primaryField.isSome then
        (if e.hasInputs && allowed.allows .create then [.create] else []) ++
          (if e.hasInputs && allowed.allows .update then [.update] else []) ++
          (if allowed.allows .delete then [.delete] else [])
      else []

/-- The generated fields of the root type. -/
def rootLines (b : Blueprint) : RootType → List FieldLine
  | .query => queryLines b.registry b.options
  | .mutation => mutationLines b.registry b.options

variable {b : Blueprint} {hooks : Hooks}

/-- The document declares what is offered. -/
theorem rootLines_eq (root : RootType) :
    b.rootLines root =
      b.registry.toList.flatMap fun e => (b.offered root e).map fun kind => rootLine kind e := by
  cases root with
  | query =>
      simp only [rootLines, queryLines, offered]
      cases b.options.queryOptions.areEnabled with
      | false => simp
      | true =>
          simp only [Bool.true_and, ite_true]
          congr 1
          funext e
          unfold queryLinesOf
          cases e.api.defaultQueries <;> cases keyed : e.primaryField <;> simp [rootLine, keyed]
  | mutation =>
      simp only [rootLines, mutationLines, offered]
      congr 1
      funext e
      unfold mutationLinesOf
      cases e.api.defaultMutations <;> cases keyed : e.primaryField <;>
        simp [apply_ite (List.map _), rootLine, keyed]

/-- The operations behind the fields, under their names. -/
def rootOperations (b : Blueprint) (hooks : Hooks) (root : RootType) : List (String × Operation) :=
  b.registry.toList.flatMap fun e =>
    (b.offered root e).map fun kind => ((rootLine kind e).name, standardOperation hooks kind e)

theorem rootOperations_query (b : Blueprint) (hooks : Hooks) :
    b.rootOperations hooks .query =
      if b.options.queryOptions.areEnabled then
        b.registry.toList.flatMap (queryOperationsOf hooks)
      else [] := by
  simp only [rootOperations, offered]
  cases b.options.queryOptions.areEnabled with
  | false => simp
  | true =>
      simp only [Bool.true_and, ite_true]
      congr 1
      funext e
      unfold queryOperationsOf
      cases e.api.defaultQueries <;> cases e.primaryField.isSome <;> simp [rootLine]

theorem rootOperations_mutation (b : Blueprint) (hooks : Hooks) :
    b.rootOperations hooks .mutation =
      b.registry.toList.flatMap (mutationOperationsOf hooks b.options.mutationOptions) := by
  simp only [rootOperations, offered]
  congr 1
  funext e
  unfold mutationOperationsOf
  cases e.api.defaultMutations <;> cases keyed : e.primaryField <;>
    simp [apply_ite (List.map _), rootLine, keyed]

theorem entityOverrides_of_none (b : Blueprint) {c : Customization} (none : c.entities = [])
    (part : EntityResolvers → Dict Operation) : b.entityOverrides c part = [] := by
  simp [entityOverrides, none, Dict.get?]

/-- Without resolvers in their place the generated operations are carried out. -/
theorem queryResolvers_eq (b : Blueprint) (hooks : Hooks) (types : Dict (Dict Operation)) :
    b.queryResolvers { hooks := hooks, types := types } =
      Dict.ofList (b.rootOperations hooks .query) := by
  simp only [queryResolvers, rootOperations_query, entityOverrides_of_none, List.append_nil]

theorem mutationResolvers_eq (b : Blueprint) (hooks : Hooks) (types : Dict (Dict Operation)) :
    b.mutationResolvers { hooks := hooks, types := types } =
      Dict.ofList (b.rootOperations hooks .mutation) := by
  simp only [mutationResolvers, rootOperations_mutation, entityOverrides_of_none, List.append_nil]

/-- The resolvers carry out what is offered. -/
theorem get?_resolvers (b : Blueprint) (hooks : Hooks) (root : RootType) (field : String) :
    (b.resolvers { hooks := hooks }).get? root.title field =
      Dict.get? (Dict.ofList (b.rootOperations hooks root)) field := by
  cases root with
  | query =>
      rw [← queryResolvers_eq]
      rfl
  | mutation =>
      rw [← mutationResolvers_eq]
      rfl

theorem names_rootLines (b : Blueprint) (hooks : Hooks) (root : RootType) :
    (b.rootLines root).map (·.name) = Dict.keys (b.rootOperations hooks root) := by
  rw [rootLines_eq, rootOperations, Dict.keys, List.map_flatMap, List.map_flatMap]
  simp only [List.map_map]
  rfl

theorem names_eq_flatMap (root : RootType) :
    (b.rootLines root).map (·.name) =
      b.registry.toList.flatMap fun e =>
        (b.offered root e).map fun kind => (rootLine kind e).name := by
  rw [rootLines_eq, List.map_flatMap]
  simp only [List.map_map]
  rfl

theorem exists_offered_of_mem {root : RootType} {line : FieldLine} (h : line ∈ b.rootLines root) :
    ∃ e ∈ b.registry.toList, ∃ kind ∈ b.offered root e, rootLine kind e = line := by
  rw [rootLines_eq] at h
  obtain ⟨e, he, made⟩ := List.mem_flatMap.mp h
  obtain ⟨kind, hkind, rfl⟩ := List.mem_map.mp made
  exact ⟨e, he, kind, hkind, rfl⟩

/-- Where no name comes twice, the operation behind a field is the one it was declared for. -/
theorem resolver_of_offered {root : RootType} (distinct : ((b.rootLines root).map (·.name)).Nodup)
    {e : Entity} (he : e ∈ b.registry.toList) {kind : OperationKind}
    (hkind : kind ∈ b.offered root e) :
    (b.resolvers { hooks := hooks }).get? root.title (rootLine kind e).name =
      some (standardOperation hooks kind e) := by
  rw [names_rootLines b hooks] at distinct
  rw [get?_resolvers, Dict.ofList_of_nodup distinct]
  refine Dict.get?_of_mem distinct ?_
  exact List.mem_flatMap.mpr ⟨e, he, List.mem_map.mpr ⟨kind, hkind, rfl⟩⟩

variable {entities : List Entity} {o : Options}

theorem nodup_offered (b : Blueprint) (root : RootType) (e : Entity) :
    (b.offered root e).Nodup := by
  cases root <;> dsimp only [offered] <;> split_ifs <;> decide

/-- An input is asked for only where there are columns to write. -/
theorem hasInputs_of_offered {e : Entity} {root : RootType} {kind : OperationKind}
    (h : kind ∈ b.offered root e) (written : kind = .create ∨ kind = .update) :
    e.hasInputs = true := by
  cases root <;> dsimp only [offered] at h <;> obtain rfl | rfl := written <;>
    split_ifs at h <;> simp_all

theorem writes_of_offered {e : Entity} {kind : OperationKind} (h : kind ∈ b.offered .mutation e) :
    kind = .create ∨ kind = .update ∨ kind = .delete := by
  dsimp only [offered] at h
  cases kind <;> split_ifs at h <;> simp at h ⊢

/-- The names of mutations begin with six letters that tell the operation. -/
theorem eq_of_mutation_name {e f : Entity} {kind other : OperationKind}
    (hkind : kind ∈ b.offered .mutation e) (hother : other ∈ b.offered .mutation f)
    (same : (rootLine kind e).name = (rootLine other f).name) : kind = other ∧ e.name = f.name := by
  obtain rfl | rfl | rfl := writes_of_offered hkind <;>
    obtain rfl | rfl | rfl := writes_of_offered hother <;>
    simp_all [rootLine, ← String.toList_inj]

/-- No name of a mutation comes twice. -/
theorem nodup_names_mutation (accepted : ofEntities entities o = .ok b) :
    ((b.rootLines .mutation).map (·.name)).Nodup := by
  have named := Registry.nodup_names (ofEntities_ok accepted).1
  rw [names_eq_flatMap, nodup_flatMap_iff named.of_map]
  refine ⟨?_, ?_⟩
  · intro e _
    refine (b.nodup_offered .mutation e).map_on ?_
    exact fun kind hkind other hother same => (eq_of_mutation_name hkind hother same).1
  · intro e he f hf different name hname hother
    obtain ⟨kind, hkind, rfl⟩ := List.mem_map.mp hname
    obtain ⟨other, hother, same⟩ := List.mem_map.mp hother
    have named_alike := (eq_of_mutation_name hkind hother same.symm).2
    exact different (List.inj_on_of_nodup_map named he hf named_alike)

/-- The names of the entity's queries. -/
def queryNames (e : Entity) : List String :=
  if e.api.defaultQueries then
    (if e.primaryField.isSome then [e.camelName] else []) ++ [e.pluralName]
  else []

/-- The queries of one entity can be told from those of the other. -/
structure QueriesApart (e f : Entity) : Prop where
  camel : e.camelName ≠ f.camelName
  plural : e.primaryField.isSome = true → e.camelName ≠ f.pluralName

theorem names_offered_query (b : Blueprint) (e : Entity) :
    (b.offered .query e).map (fun kind => (rootLine kind e).name) =
      if b.options.queryOptions.areEnabled then queryNames e else [] := by
  dsimp only [offered, queryNames]
  cases b.options.queryOptions.areEnabled <;> cases e.api.defaultQueries <;>
    cases e.primaryField.isSome <;> rfl

theorem nodup_queryNames (e : Entity) : (queryNames e).Nodup := by
  have longer : e.camelName ≠ e.pluralName := by
    intro same
    have lengths := congrArg String.length same
    simp [Entity.pluralName] at lengths
  unfold queryNames
  split_ifs <;> simp [longer]

theorem mem_queryNames {e : Entity} {name : String} :
    name ∈ queryNames e ↔ e.api.defaultQueries = true ∧
      (e.primaryField.isSome = true ∧ name = e.camelName ∨ name = e.pluralName) := by
  unfold queryNames
  cases e.api.defaultQueries <;> cases e.primaryField.isSome <;> simp

theorem disjoint_queryNames_iff (e f : Entity) :
    List.Disjoint (queryNames e) (queryNames f) ↔
      (e.api.defaultQueries = true → f.api.defaultQueries = true →
        QueriesApart e f ∧ QueriesApart f e) := by
  have plural : e.pluralName = f.pluralName ↔ e.camelName = f.camelName := by
    simp [Entity.pluralName]
  simp only [List.Disjoint, mem_queryNames]
  constructor
  · intro apart offersE offersF
    have camel : e.camelName ≠ f.camelName := fun same =>
      apart ⟨offersE, .inr rfl⟩ ⟨offersF, .inr (plural.mpr same)⟩
    refine ⟨⟨camel, ?_⟩, ⟨camel.symm, ?_⟩⟩
    · exact fun keyed same => apart ⟨offersE, .inl ⟨keyed, rfl⟩⟩ ⟨offersF, .inr same⟩
    · exact fun keyed same => apart ⟨offersE, .inr rfl⟩ ⟨offersF, .inl ⟨keyed, same.symm⟩⟩
  · rintro apart name ⟨offersE, named⟩ ⟨offersF, named'⟩
    obtain ⟨ahead, behind⟩ := apart offersE offersF
    obtain ⟨keyed, rfl⟩ | rfl := named <;> obtain ⟨keyed', same⟩ | same := named'
    · exact ahead.camel same
    · exact ahead.plural keyed same
    · exact behind.plural keyed' same.symm
    · exact ahead.camel (plural.mp same)

/-- The names of queries are distinct when no entity has the camel name of another, nor the plural
name of another while it has a query for one row. -/
theorem nodup_names_query_iff (accepted : ofEntities entities o = .ok b) :
    ((b.rootLines .query).map (·.name)).Nodup ↔
      (b.options.queryOptions.areEnabled = true →
        ∀ e ∈ b.registry.toList, ∀ f ∈ b.registry.toList, e ≠ f →
          e.api.defaultQueries = true → f.api.defaultQueries = true → QueriesApart e f) := by
  have named := Registry.nodup_names (ofEntities_ok accepted).1
  rw [names_eq_flatMap, nodup_flatMap_iff named.of_map]
  simp only [names_offered_query]
  cases b.options.queryOptions.areEnabled with
  | false => simp
  | true =>
      simp only [ite_true, forall_const, disjoint_queryNames_iff]
      constructor
      · rintro ⟨_, apart⟩ e he f hf different offersE offersF
        exact (apart e he f hf different offersE offersF).1
      · refine fun apart => ⟨fun e _ => nodup_queryNames e, ?_⟩
        intro e he f hf different offersE offersF
        exact ⟨apart e he f hf different offersE offersF,
          apart f hf e he different.symm offersF offersE⟩

end Blueprint
end EntityGraph
