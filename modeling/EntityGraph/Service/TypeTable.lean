import EntityGraph.Schema.Definition

/-!
Types by name: those of a schema, the five scalars that are always there, and the types by which
a schema describes itself.
-/

namespace EntityGraph

def TypeRef.base : TypeRef → String
  | .named name => name
  | .list item => item.base
  | .nonNull type => type.base

def TypeRef.isNonNull : TypeRef → Bool
  | .nonNull _ => true
  | _ => false

namespace Service

inductive TypeDefinition where
  | object (fields : List Schema.Field)
  | input (fields : List Schema.Input)
  | enum (values : List String)
  | scalar
deriving Repr

def TypeDefinition.isInput : TypeDefinition → Bool
  | .object _ => false
  | _ => true

def TypeDefinition.isOutput : TypeDefinition → Bool
  | .input _ => false
  | _ => true

/-- A type without fields of its own to select. -/
def TypeDefinition.isLeaf : TypeDefinition → Bool
  | .enum _ | .scalar => true
  | _ => false

abbrev TypeTable := Dict TypeDefinition

namespace TypeTable

def builtIns : List String := ["Int", "Float", "String", "Boolean", "ID"]

def nullable (name : String) : TypeRef := .named name

def needed (name : String) : TypeRef := .nonNull (.named name)

def listOf (name : String) : TypeRef := .list (needed name)

def plain (name : String) (type : TypeRef) : Schema.Field := ⟨name, [], type⟩

/-- Lists of what may be deprecated take an argument for it. -/
def withDeprecated (name : String) (type : TypeRef) : Schema.Field :=
  ⟨name, [⟨"includeDeprecated", needed "Boolean", some (.bool false)⟩], type⟩

def described : List Schema.Field :=
  [plain "name" (needed "String"), plain "description" (nullable "String")]

def deprecable : List Schema.Field :=
  [plain "isDeprecated" (needed "Boolean"), plain "deprecationReason" (nullable "String")]

/-- The types by which a schema describes itself. -/
def metaTypes : TypeTable :=
  [("__Schema", .object
      [plain "description" (nullable "String"), plain "types" (.nonNull (listOf "__Type")),
       plain "queryType" (needed "__Type"), plain "mutationType" (nullable "__Type"),
       plain "subscriptionType" (nullable "__Type"),
       plain "directives" (.nonNull (listOf "__Directive"))]),
   ("__Type", .object
      [plain "kind" (needed "__TypeKind"), plain "name" (nullable "String"),
       plain "description" (nullable "String"), withDeprecated "fields" (listOf "__Field"),
       plain "interfaces" (listOf "__Type"), plain "possibleTypes" (listOf "__Type"),
       withDeprecated "enumValues" (listOf "__EnumValue"),
       withDeprecated "inputFields" (listOf "__InputValue"), plain "ofType" (nullable "__Type"),
       plain "specifiedByURL" (nullable "String"), plain "isOneOf" (nullable "Boolean")]),
   ("__Field", .object
      (described ++ [withDeprecated "args" (.nonNull (listOf "__InputValue")),
        plain "type" (needed "__Type")] ++ deprecable)),
   ("__InputValue", .object
      (described ++ [plain "type" (needed "__Type"), plain "defaultValue" (nullable "String")] ++
        deprecable)),
   ("__EnumValue", .object (described ++ deprecable)),
   ("__Directive", .object
      (described ++ [plain "locations" (.nonNull (listOf "__DirectiveLocation")),
        withDeprecated "args" (.nonNull (listOf "__InputValue")),
        plain "isRepeatable" (needed "Boolean")])),
   ("__TypeKind", .enum
      ["SCALAR", "OBJECT", "INTERFACE", "UNION", "ENUM", "INPUT_OBJECT", "LIST", "NON_NULL"]),
   ("__DirectiveLocation", .enum
      ["QUERY", "MUTATION", "SUBSCRIPTION", "FIELD", "FRAGMENT_DEFINITION", "FRAGMENT_SPREAD",
       "INLINE_FRAGMENT", "VARIABLE_DEFINITION", "SCHEMA", "SCALAR", "OBJECT", "FIELD_DEFINITION",
       "ARGUMENT_DEFINITION", "INTERFACE", "UNION", "ENUM", "ENUM_VALUE", "INPUT_OBJECT",
       "INPUT_FIELD_DEFINITION"])]

/-- The fields of the query type that lead to the description of the schema. -/
def metaFields : List Schema.Field :=
  [plain "__schema" (needed "__Schema"),
   ⟨"__type", [⟨"name", needed "String", none⟩], nullable "__Type"⟩]

def get? (t : TypeTable) (name : String) : Option TypeDefinition :=
  if builtIns.contains name then some .scalar
  else (Dict.get? t name).or (Dict.get? metaTypes name)

/-- The fields of an object type that a request may select. -/
def fieldsOf (t : TypeTable) (name : String) : List Schema.Field :=
  match get? t name with
  | some (.object fields) => if name = "Query" then fields ++ metaFields else fields
  | _ => []

def field? (t : TypeTable) (type name : String) : Option Schema.Field :=
  (fieldsOf t type).find? (·.name = name)

def isLeaf (t : TypeTable) (name : String) : Bool :=
  ((get? t name).map (·.isLeaf)).getD false

end TypeTable

/-- A directive that requests or schemas may use. -/
structure DirectiveDefinition where
  name : String
  arguments : List Schema.Input
  locations : List String
deriving Repr

/-- The known directives, by name. Requests may use the two that choose fields. -/
def knownDirectives : List DirectiveDefinition :=
  let condition : Schema.Input := ⟨"if", TypeTable.needed "Boolean", none⟩
  let selections := ["FIELD", "FRAGMENT_SPREAD", "INLINE_FRAGMENT"]
  [⟨"deprecated", [⟨"reason", TypeTable.nullable "String", some (.string "No longer supported")⟩],
      ["FIELD_DEFINITION", "ARGUMENT_DEFINITION", "INPUT_FIELD_DEFINITION", "ENUM_VALUE"]⟩,
   ⟨"include", [condition], selections⟩,
   ⟨"oneOf", [], ["INPUT_OBJECT"]⟩,
   ⟨"skip", [condition], selections⟩,
   ⟨"specifiedBy", [⟨"url", TypeTable.needed "String", none⟩], ["SCALAR"]⟩]

end Service

end EntityGraph
