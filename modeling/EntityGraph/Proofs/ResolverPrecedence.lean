import EntityGraph.Proofs.RootResolvers

/-!
Which of several resolvers for a field is the one that is used. Each part of the configuration holds
what the last setting of it says. Resolvers that are given for a whole type are all that is left of
the type; of the others those given by name come first, then those of the last entity that has one,
and then the generated operations, with the hooks that were set last.
-/

namespace EntityGraph

/-- Operations by name, with no name twice. -/
abbrev OperationMap := { fields : Dict Operation // (Dict.keys fields).Nodup }

/-- One step in configuring hooks and resolvers. -/
inductive Setting where
  | queryFunction (f : QueryFunction)
  | mutationFunction (f : MutationFunction)
  | queryResolver (name : String) (op : Operation)
  | mutationResolver (name : String) (op : Operation)
  | entityResolvers (entity : String) (query mutation : OperationMap)
  | typeResolvers (type : String) (fields : OperationMap)

namespace Customization

def apply (c : Customization) : Setting → Customization
  | .queryFunction f => c.withQueryFunction f
  | .mutationFunction f => c.withMutationFunction f
  | .queryResolver name op => c.withQueryResolver name op
  | .mutationResolver name op => c.withMutationResolver name op
  | .entityResolvers entity query mutation => c.withEntityResolvers entity ⟨query.1, mutation.1⟩
  | .typeResolvers type fields => c.withTypeResolvers type fields.1

/-- The settings in turn. -/
def ofSettings (settings : List Setting) : Customization := settings.foldl apply {}

end Customization

namespace Setting

/-- What the last of the settings has to say that says anything. -/
def last? {α : Type} (sets : Setting → Option α) (settings : List Setting) : Option α :=
  (settings.filterMap sets).getLast?

/-- The resolvers for the whole type. -/
def wholeType? (type : String) : Setting → Option OperationMap
  | typeResolvers t fields => if t = type then some fields else none
  | _ => none

/-- The resolver by name. -/
def named? (name : String) : RootType → Setting → Option Operation
  | .query, queryResolver n op => if n = name then some op else none
  | .mutation, mutationResolver n op => if n = name then some op else none
  | _, _ => none

/-- The resolvers for the entity. -/
def overrides? (entity : String) : RootType → Setting → Option OperationMap
  | .query, entityResolvers n query _ => if n = entity then some query else none
  | .mutation, entityResolvers n _ mutation => if n = entity then some mutation else none
  | _, _ => none

/-- The hook for operations of the kind. -/
def hook? : OperationKind → Setting → Option Hook
  | .readOne, queryFunction (.all hook) | .readMany, queryFunction (.all hook) => some hook
  | .readOne, queryFunction (.split single _) => single
  | .readMany, queryFunction (.split _ multi) => multi
  | .create, mutationFunction (.all hook) | .update, mutationFunction (.all hook)
  | .delete, mutationFunction (.all hook) => some hook
  | .create, mutationFunction (.split create _ _) => create
  | .update, mutationFunction (.split _ update _) => update
  | .delete, mutationFunction (.split _ _ delete) => delete
  | _, _ => none

/-- Reads are hooked by query functions, and writes by mutation functions. -/
def mayHook : OperationKind → Setting → Bool
  | .readOne, queryFunction _ | .readMany, queryFunction _ => true
  | .create, mutationFunction _ | .update, mutationFunction _ | .delete, mutationFunction _ => true
  | _, _ => false

variable {α : Type}

theorem last?_cons (sets : Setting → Option α) (s : Setting) (rest : List Setting) :
    last? sets (s :: rest) = (last? sets rest).or (sets s) := by
  rw [last?, List.filterMap_cons]
  cases sets s with
  | none => exact Option.or_none.symm
  | some v =>
      rw [List.getLast?_cons, last?]
      cases (rest.filterMap sets).getLast? <;> rfl

/-- What each setting either replaces or leaves as it is, is what the last of them has to say. -/
theorem read_foldl {read : Customization → Option α} {sets : Setting → Option α}
    (step : ∀ c s, read (c.apply s) = (sets s).or (read c)) (settings : List Setting)
    (c : Customization) :
    read (settings.foldl Customization.apply c) = (last? sets settings).or (read c) := by
  induction settings generalizing c with
  | nil => rfl
  | cons s rest ih => rw [List.foldl_cons, ih, step, last?_cons, Option.or_assoc]

theorem read_ofSettings (read : Customization → Option α) {sets : Setting → Option α}
    (start : read {} = none) (step : ∀ c s, read (c.apply s) = (sets s).or (read c))
    (settings : List Setting) : read (.ofSettings settings) = last? sets settings := by
  rw [Customization.ofSettings, read_foldl step, start, Option.or_none]

theorem last?_map {β : Type} (sets : Setting → Option α) (f : α → β) (settings : List Setting) :
    last? (fun s => (sets s).map f) settings = (last? sets settings).map f := by
  rw [last?, ← List.map_filterMap, List.getLast?_map]
  rfl

/-- Settings that say nothing can be left out. -/
theorem last?_filter (sets : Setting → Option α) {keep : Setting → Bool}
    (silent : ∀ s, keep s = false → sets s = none) (settings : List Setting) :
    last? sets (settings.filter keep) = last? sets settings := by
  rw [last?, List.filterMap_filter, last?]
  congr 1
  refine List.filterMap_congr fun s _ => ?_
  cases kept : keep s with
  | true => rfl
  | false => exact (silent s kept).symm

end Setting

/-- The resolvers for an entity in a root type. -/
def EntityResolvers.part (r : EntityResolvers) : RootType → Dict Operation
  | .query => r.query
  | .mutation => r.mutation

namespace Customization

open Setting

theorem hooks_ofSettings (kind : OperationKind) (settings : List Setting) :
    (ofSettings settings).hooks.of kind = last? (hook? kind) settings := by
  refine read_ofSettings (fun c => c.hooks.of kind) (by cases kind <;> rfl) ?_ settings
  intro c s
  cases s with
  | queryFunction f => cases f <;> cases kind <;> rfl
  | mutationFunction f => cases f <;> cases kind <;> rfl
  | queryResolver _ _ | mutationResolver _ _ | entityResolvers _ _ _ | typeResolvers _ _ =>
      cases kind <;> rfl

theorem types_ofSettings (type : String) (settings : List Setting) :
    Dict.get? (ofSettings settings).types type = (last? (wholeType? type) settings).map (·.1) := by
  rw [← last?_map]
  refine read_ofSettings (fun c => Dict.get? c.types type) rfl ?_ settings
  intro c s
  cases s with
  | typeResolvers t fields =>
      dsimp only [apply, withTypeResolvers, wholeType?]
      rw [Dict.get?_insert]
      split <;> rfl
  | queryFunction _ | mutationFunction _ | queryResolver _ _ | mutationResolver _ _
  | entityResolvers _ _ _ => rfl

/-- The resolvers by name. -/
def named (c : Customization) : RootType → Dict Operation
  | .query => c.query
  | .mutation => c.mutation

theorem named_ofSettings (root : RootType) (name : String) (settings : List Setting) :
    Dict.get? ((ofSettings settings).named root) name = last? (named? name root) settings := by
  refine read_ofSettings (fun c => Dict.get? (c.named root) name)
    (by cases root <;> rfl) ?_ settings
  intro c s
  cases root with
  | query =>
      cases s with
      | queryResolver n op =>
          dsimp only [apply, withQueryResolver, named, named?]
          rw [Dict.get?_insert]
          split <;> rfl
      | queryFunction _ | mutationFunction _ | mutationResolver _ _ | entityResolvers _ _ _
      | typeResolvers _ _ => rfl
  | mutation =>
      cases s with
      | mutationResolver n op =>
          dsimp only [apply, withMutationResolver, named, named?]
          rw [Dict.get?_insert]
          split <;> rfl
      | queryFunction _ | mutationFunction _ | queryResolver _ _ | entityResolvers _ _ _
      | typeResolvers _ _ => rfl

theorem entities_ofSettings (root : RootType) (entity : String) (settings : List Setting) :
    (Dict.get? (ofSettings settings).entities entity).map (·.part root) =
      (last? (overrides? entity root) settings).map (·.1) := by
  rw [← last?_map]
  refine read_ofSettings (fun c => (Dict.get? c.entities entity).map (·.part root)) rfl ?_
    settings
  intro c s
  cases s with
  | entityResolvers n query mutation =>
      dsimp only [apply, withEntityResolvers]
      rw [Dict.get?_insert]
      cases root <;> dsimp only [overrides?] <;> split <;> rfl
  | queryFunction _ | mutationFunction _ | queryResolver _ _ | mutationResolver _ _
  | typeResolvers _ _ => cases root <;> rfl

/-- No name comes twice. -/
structure Distinct (c : Customization) : Prop where
  query : (Dict.keys c.query).Nodup
  mutation : (Dict.keys c.mutation).Nodup
  types : (Dict.keys c.types).Nodup

theorem Distinct.apply {c : Customization} (h : c.Distinct) (s : Setting) :
    (c.apply s).Distinct := by
  cases s with
  | queryResolver name op => exact { h with query := Dict.nodup_keys_insert h.query name op }
  | mutationResolver name op =>
      exact { h with mutation := Dict.nodup_keys_insert h.mutation name op }
  | typeResolvers type fields =>
      exact { h with types := Dict.nodup_keys_insert h.types type fields.1 }
  | queryFunction _ | mutationFunction _ | entityResolvers _ _ _ =>
      exact ⟨h.query, h.mutation, h.types⟩

theorem distinct_ofSettings (settings : List Setting) : (ofSettings settings).Distinct := by
  have run : ∀ c : Customization, c.Distinct → (settings.foldl apply c).Distinct := by
    induction settings with
    | nil => exact fun _ h => h
    | cons s rest ih => exact fun c h => ih _ (h.apply s)
  exact run {} ⟨.nil, .nil, .nil⟩

end Customization

def RootType.ofTitle? (type : String) : Option RootType :=
  if RootType.query.title = type then some .query
  else if RootType.mutation.title = type then some .mutation
  else none

namespace Blueprint

open Schema Setting

variable (b : Blueprint)

/-- The resolvers of a root type, before a whole type takes their place. -/
def rootResolvers (c : Customization) : RootType → Dict Operation
  | .query => b.queryResolvers c
  | .mutation => b.mutationResolvers c

/-- The resolver of the last entity of the registry that has one of the name. -/
def overriding? (settings : List Setting) (root : RootType) (name : String) : Option Operation :=
  (b.registry.toList.filterMap fun e =>
    (last? (overrides? e.name root) settings).bind fun m => Dict.get? m.1 name).getLast?

/-- The last operation that is generated under the name, with the hook for its kind. -/
def generated? (settings : List Setting) (root : RootType) (name : String) : Option Operation :=
  ((b.rootPairs root).filter fun pair => (rootLine pair.1 pair.2).name = name).getLast?.map
    fun pair => .standard ⟨pair.1, pair.2.name, last? (hook? pair.1) settings⟩

/-- What stands behind a field. -/
def resolver? (settings : List Setting) (type field : String) : Option Operation :=
  match last? (wholeType? type) settings with
  | some fields => Dict.get? fields.1 field
  | none =>
      (RootType.ofTitle? type).bind fun root =>
        (last? (named? field root) settings).or
          ((b.overriding? settings root field).or (b.generated? settings root field))

theorem rootResolvers_eq (c : Customization) (root : RootType) :
    b.rootResolvers c root =
      Dict.ofList (b.rootOperations c.hooks root ++ b.entityOverrides c (·.part root) ++
        c.named root) := by
  cases root with
  | query =>
      rw [rootOperations_query]
      rfl
  | mutation =>
      rw [rootOperations_mutation]
      rfl

theorem get?_rootOperations (settings : List Setting) (root : RootType) (name : String) :
    Dict.get? (Dict.ofList (b.rootOperations (Customization.ofSettings settings).hooks root)) name =
      b.generated? settings root name := by
  rw [rootOperations_eq_map, Dict.get?_ofList_map, generated?]
  simp only [standardOperation, Customization.hooks_ofSettings]

theorem get?_entityOverrides (settings : List Setting) (root : RootType) (name : String) :
    Dict.get? (Dict.ofList
        (b.entityOverrides (Customization.ofSettings settings) (·.part root))) name =
      b.overriding? settings root name := by
  rw [entityOverrides, Dict.get?_ofList_flatMap, overriding?]
  congr 1
  refine List.filterMap_congr fun e _ => ?_
  rw [Customization.entities_ofSettings]
  cases last? (overrides? e.name root) settings with
  | none => rfl
  | some m => exact congrArg (Dict.get? · name) (Dict.ofList_of_nodup m.2)

theorem get?_rootResolvers (settings : List Setting) (root : RootType) (name : String) :
    Dict.get? (b.rootResolvers (.ofSettings settings) root) name =
      (last? (named? name root) settings).or
        ((b.overriding? settings root name).or (b.generated? settings root name)) := by
  have distinct : (Dict.keys ((Customization.ofSettings settings).named root)).Nodup := by
    cases root with
    | query => exact (Customization.distinct_ofSettings settings).query
    | mutation => exact (Customization.distinct_ofSettings settings).mutation
  rw [rootResolvers_eq, Dict.get?_ofList_append, Dict.get?_ofList_append,
    Dict.ofList_of_nodup distinct, Customization.named_ofSettings, get?_entityOverrides,
    get?_rootOperations]

theorem get?_roots (c : Customization) (type : String) :
    Dict.get? [("Query", b.queryResolvers c), ("Mutation", b.mutationResolvers c)] type =
      (RootType.ofTitle? type).map (b.rootResolvers c) := by
  by_cases query : "Query" = type
  · subst query
    rfl
  · by_cases mutation : "Mutation" = type
    · subst mutation
      rfl
    · simp [Dict.get?, RootType.ofTitle?, RootType.title, query, mutation]

theorem get?_resolvers_ofSettings (settings : List Setting) (type field : String) :
    (b.resolvers (.ofSettings settings)).get? type field = b.resolver? settings type field := by
  have distinct := (Customization.distinct_ofSettings settings).types
  rw [ResolverMap.get?, resolvers, Dict.get?_insertAll, Dict.get?_reverse distinct,
    Customization.types_ofSettings, resolver?]
  cases last? (wholeType? type) settings with
  | some fields => rfl
  | none =>
      simp only [← get?_rootResolvers]
      rw [Option.map_none, Option.none_or, get?_roots, Option.bind_map]
      rfl

/-- Whether the setting is one for all entities or for one of the registry. -/
def concerns : Setting → Bool
  | .entityResolvers entity _ _ => b.registry.toList.any (·.name = entity)
  | _ => true

/-- Two configurations that differ at most in what they hold for entities outside the registry. -/
structure SameFor (c c' : Customization) : Prop where
  hooks : c'.hooks = c.hooks
  query : c'.query = c.query
  mutation : c'.mutation = c.mutation
  types : c'.types = c.types
  entities : ∀ e ∈ b.registry.toList, Dict.get? c'.entities e.name = Dict.get? c.entities e.name

variable {b}

section SameFor

variable {c c' : Customization}

theorem SameFor.apply (h : b.SameFor c c') (s : Setting) :
    b.SameFor (c.apply s) (c'.apply s) := by
  cases s with
  | queryFunction f => exact { h with hooks := congrArg (·.applyQuery f) h.hooks }
  | mutationFunction f => exact { h with hooks := congrArg (·.applyMutation f) h.hooks }
  | queryResolver name op => exact { h with query := congrArg (Dict.insert · name op) h.query }
  | mutationResolver name op =>
      exact { h with mutation := congrArg (Dict.insert · name op) h.mutation }
  | typeResolvers type fields =>
      exact { h with types := congrArg (Dict.insert · type fields.1) h.types }
  | entityResolvers entity query mutation =>
      refine ⟨h.hooks, h.query, h.mutation, h.types, fun e he => ?_⟩
      dsimp only [Customization.apply, Customization.withEntityResolvers]
      rw [Dict.get?_insert, Dict.get?_insert, h.entities e he]

theorem SameFor.skip (h : b.SameFor c c') {s : Setting} (outside : b.concerns s = false) :
    b.SameFor (c.apply s) c' := by
  cases s with
  | entityResolvers entity query mutation =>
      refine ⟨h.hooks, h.query, h.mutation, h.types, fun e he => ?_⟩
      have other : entity ≠ e.name := by
        rintro rfl
        exact List.any_eq_false.mp outside e he (decide_eq_true rfl)
      dsimp only [Customization.apply, Customization.withEntityResolvers]
      rw [Dict.get?_insert, if_neg other, h.entities e he]
  | queryFunction _ | mutationFunction _ | queryResolver _ _ | mutationResolver _ _
  | typeResolvers _ _ => cases outside

theorem SameFor.entityOverrides (h : b.SameFor c c') (part : EntityResolvers → Dict Operation) :
    b.entityOverrides c' part = b.entityOverrides c part := by
  refine List.flatMap_congr fun e he => ?_
  rw [h.entities e he]

theorem SameFor.resolvers (h : b.SameFor c c') : b.resolvers c' = b.resolvers c := by
  have queries : b.queryResolvers c' = b.queryResolvers c := by
    rw [queryResolvers, h.hooks, h.entityOverrides, h.query]
    rfl
  have mutations : b.mutationResolvers c' = b.mutationResolvers c := by
    rw [mutationResolvers, h.hooks, h.entityOverrides, h.mutation]
    rfl
  rw [Blueprint.resolvers, queries, mutations, h.types]
  rfl

theorem sameFor_filter (b : Blueprint) (settings : List Setting) :
    b.SameFor (.ofSettings settings) (.ofSettings (settings.filter b.concerns)) := by
  have run : ∀ c c' : Customization, b.SameFor c c' →
      b.SameFor (settings.foldl Customization.apply c)
        ((settings.filter b.concerns).foldl Customization.apply c') := by
    induction settings with
    | nil => exact fun _ _ h => h
    | cons s rest ih =>
        intro c c' h
        cases within : b.concerns s with
        | true =>
            rw [List.filter_cons_of_pos within]
            exact ih _ _ (h.apply s)
        | false =>
            rw [List.filter_cons_of_neg (by simp [within])]
            exact ih _ _ (h.skip within)
  exact run {} {} ⟨rfl, rfl, rfl, rfl, fun _ _ => rfl⟩

end SameFor

/-- Behind a field of a type that was given as a whole stands what was given last, and nothing else.
Behind another field of a root type stands the last resolver by this name, else that of the last
entity in whose latest resolvers the name is, else the operation that is generated, with the hook
that was last set for its kind. Resolvers for entities outside of the registry make no difference,
and neither do query functions for the hooks of writes or mutation functions for those of reads. -/
theorem resolvers_precedence (b : Blueprint) (settings : List Setting) :
    (∀ type field,
      (b.resolvers (.ofSettings settings)).get? type field = b.resolver? settings type field) ∧
    b.resolvers (.ofSettings (settings.filter b.concerns)) = b.resolvers (.ofSettings settings) ∧
    (∀ kind, (Customization.ofSettings settings).hooks.of kind = last? (hook? kind) settings) ∧
    ∀ kind, (Customization.ofSettings (settings.filter (mayHook kind))).hooks.of kind =
      (Customization.ofSettings settings).hooks.of kind := by
  refine ⟨b.get?_resolvers_ofSettings settings, (b.sameFor_filter settings).resolvers,
    fun kind => Customization.hooks_ofSettings kind settings, fun kind => ?_⟩
  rw [Customization.hooks_ofSettings, Customization.hooks_ofSettings]
  apply last?_filter
  intro s silent
  cases s with
  | queryFunction f | mutationFunction f => cases kind <;> first | rfl | cases silent
  | queryResolver _ _ | mutationResolver _ _ | entityResolvers _ _ _ | typeResolvers _ _ =>
      cases kind <;> rfl

end Blueprint

namespace Catalog

/-- A resolver for the whole query type leaves the generated mutations alone. -/
example (fields : OperationMap) :
    let resolvers := garden.resolvers (.ofSettings [.typeResolvers "Query" fields])
    Dict.get? resolvers "Query" = some fields.1 ∧
      resolvers.get? "Mutation" "deletePlant" = some (.standard ⟨.delete, "Plant", none⟩) :=
  ⟨rfl, rfl⟩

end Catalog
end EntityGraph
