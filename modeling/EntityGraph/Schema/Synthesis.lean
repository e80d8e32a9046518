import EntityGraph.Schema.Document
import EntityGraph.Entity.Registry
import EntityGraph.Argument.Protocol

/-!
The schema document of a registry: for each entity an object type and two input types, then the
added types, then the root types with a field for every default operation.
-/

namespace EntityGraph

namespace Schema

/-- An added text without the line ends around it, unless it is blank. -/
def addedText? (s : String) : Option String :=
  let s := Text.trimLines s
  if Text.allBlank s then none else some s

def scalarParameters (e : Entity) : List Parameter :=
  e.scalarFields.map fun (name, t) => ⟨name, .named t.schemaName⟩

def scalarLines (e : Entity) : List FieldLine :=
  e.scalarFields.map fun (name, t) => ⟨name, [], .named t.schemaName⟩

/-- The type of the argument that filters a field of type `t` by `op`. -/
def argumentType (op : FilterOp) (t : ScalarType) : TypeRef :=
  match op with
  | .isNull => .named "Boolean"
  | op => if op.takesList then .list (.named t.schemaName) else .named t.schemaName

def filterParameters (p : ArgumentProtocol) (field : String) (t : ScalarType) : List Parameter :=
  p.operators.map fun (op, suffix) => ⟨field ++ suffix, argumentType op t⟩

def pagingParameters (p : ArgumentProtocol) : List Parameter :=
  p.paging.map fun (arg, name) => ⟨name, .named arg.typeName⟩

/-- Filters for every scalar field of the target, then ordering and paging. -/
def relationParameters (p : ArgumentProtocol) (target : Entity) : List Parameter :=
  target.scalarFields.flatMap (fun (field, t) => filterParameters p field t) ++
    pagingParameters p

def relationLine? (r : Registry) (p : ArgumentProtocol) (a : ApiRelation) : Option FieldLine :=
  (r.get? a.relation.target).map fun target =>
    { name := a.apiName
      arguments := relationParameters p target
      type :=
        if a.relation.cardinality.isList then .list (.named target.name)
        else .named target.name }

def objectBlock (r : Registry) (p : ArgumentProtocol) (e : Entity) : Block :=
  .object e.name (scalarLines e ++ e.apiRelations.filterMap (relationLine? r p)) none

def entityBlocks (r : Registry) (p : ArgumentProtocol) (e : Entity) : List Block :=
  objectBlock r p e ::
    if e.hasInputs then
      [.input e.createInputName (scalarParameters e), .input e.updateInputName (scalarParameters e)]
    else []

def keyType : TypeRef := .nonNull (.named "Int")

def queryLinesOf (e : Entity) : List FieldLine :=
  if !e.api.defaultQueries then []
  else match e.primaryField with
    | some key =>
        [⟨e.camelName, [⟨key, keyType⟩], .named e.name⟩,
         ⟨e.pluralName, [⟨key ++ "Array", .list (.named "Int")⟩], .list (.named e.name)⟩]
    | none => [⟨e.pluralName, [], .list (.named e.name)⟩]

def queryLines (r : Registry) (o : Options) : List FieldLine :=
  if o.queryOptions.areEnabled then r.toList.flatMap queryLinesOf else []

def mutationLinesOf (allowed : MutationOptions) (e : Entity) : List FieldLine :=
  if !e.api.defaultMutations then []
  else match e.primaryField with
    | none => []
    | some key =>
        (if e.hasInputs && allowed.allows .create then
          [⟨"create" ++ e.name, [⟨e.camelName, .nonNull (.named e.createInputName)⟩],
            .nonNull (.named e.name)⟩]
        else []) ++
        (if e.hasInputs && allowed.allows .update then
          [⟨"update" ++ e.name,
            [⟨key, keyType⟩, ⟨e.camelName, .nonNull (.named e.updateInputName)⟩],
            .nonNull (.named e.name)⟩]
        else []) ++
        (if allowed.allows .delete then
          [⟨"delete" ++ e.name, [⟨key, keyType⟩], .named "Boolean"⟩]
        else [])

def mutationLines (r : Registry) (o : Options) : List FieldLine :=
  r.toList.flatMap (mutationLinesOf o.mutationOptions)

/-- A root type has generated fields, added text or both; with neither there is none. -/
def rootBlock? (name : String) (fields : List FieldLine) (added : String) : Option Block :=
  let added := addedText? added
  if fields.isEmpty && added.isNone then none else some (.object name fields added)

def blocks (r : Registry) (p : ArgumentProtocol) (o : Options) : List Block :=
  r.toList.flatMap (entityBlocks r p) ++
    ((addedText? o.extendTypes).map Block.verbatim).toList ++
    (rootBlock? "Query" (queryLines r o) o.extendQueries).toList ++
    (rootBlock? "Mutation" (mutationLines r o) o.extendMutations).toList

end Schema

end EntityGraph
