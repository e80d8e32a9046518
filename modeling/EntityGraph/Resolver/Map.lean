import EntityGraph.Resolver.Operation
import EntityGraph.Blueprint

/-!
The operation behind every field of the root types. Generated operations come first, resolvers
for entities replace them in the order of the entities, then come the ones by name; a type that
is given as a whole replaces all that was there for it.
-/

namespace EntityGraph

abbrev ResolverMap := Dict (Dict Operation)

namespace ResolverMap

def get? (m : ResolverMap) (type field : String) : Option Operation :=
  (Dict.get? m type).bind fun fields => Dict.get? fields field

end ResolverMap

namespace Blueprint

def standardOperation (hooks : Hooks) (kind : OperationKind) (e : Entity) : Operation :=
  .standard ⟨kind, e.name, hooks.of kind⟩

def queryOperationsOf (hooks : Hooks) (e : Entity) : List (String × Operation) :=
  if !e.api.defaultQueries then []
  else
    (if e.primaryField.isSome then [(e.camelName, standardOperation hooks .readOne e)] else []) ++
      [(e.pluralName, standardOperation hooks .readMany e)]

def mutationOperationsOf (hooks : Hooks) (allowed : MutationOptions) (e : Entity) :
    List (String × Operation) :=
  if !e.api.defaultMutations || e.primaryField.isNone then []
  else
    (if e.hasInputs && allowed.allows .create then
      [("create" ++ e.name, standardOperation hooks .create e)] else []) ++
    (if e.hasInputs && allowed.allows .update then
      [("update" ++ e.name, standardOperation hooks .update e)] else []) ++
    (if allowed.allows .delete then
      [("delete" ++ e.name, standardOperation hooks .delete e)] else [])

/-- The resolvers set for the entities of the registry, in its order. -/
def entityOverrides (b : Blueprint) (c : Customization) (part : EntityResolvers → Dict Operation) :
    List (String × Operation) :=
  b.registry.toList.flatMap fun e => ((Dict.get? c.entities e.name).map part).getD []

def queryResolvers (b : Blueprint) (c : Customization) : Dict Operation :=
  let generated :=
    if b.options.queryOptions.areEnabled then
      b.registry.toList.flatMap (queryOperationsOf c.hooks)
    else []
  Dict.ofList (generated ++ b.entityOverrides c (·.query) ++ c.query)

def mutationResolvers (b : Blueprint) (c : Customization) : Dict Operation :=
  let generated :=
    b.registry.toList.flatMap (mutationOperationsOf c.hooks b.options.mutationOptions)
  Dict.ofList (generated ++ b.entityOverrides c (·.mutation) ++ c.mutation)

def resolvers (b : Blueprint) (c : Customization) : ResolverMap :=
  Dict.insertAll [("Query", b.queryResolvers c), ("Mutation", b.mutationResolvers c)] c.types

end Blueprint

end EntityGraph
