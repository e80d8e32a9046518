import EntityGraph.Service.TypeSystem
import EntityGraph.Query.Expansion
import EntityGraph.Json.Merge

/-!
What a schema says about itself. The parts of a schema are the values of the types that describe
schemas, and a selection on one of them is answered from the type system alone. Nothing in a
schema is deprecated or described.
-/

namespace EntityGraph

namespace Service

inductive Part where
  | schema
  | type (type : TypeRef)
  | field (f : Schema.Field)
  | input (i : Schema.Input)
  | enumValue (name : String)
  | directive (d : DirectiveDefinition)
deriving Repr

inductive PartValue where
  | leaf (v : Json)
  | part (p : Part)
  | parts (ps : List Part)
deriving Repr

namespace PartValue

def nothing : PartValue := .leaf .null

def ofText (s : String) : PartValue := .leaf (.string s)

def types (names : List String) : PartValue := .parts (names.map fun n => .type (.named n))

end PartValue

def Part.typeName : Part → String
  | .schema => "__Schema"
  | .type _ => "__Type"
  | .field _ => "__Field"
  | .input _ => "__InputValue"
  | .enumValue _ => "__EnumValue"
  | .directive _ => "__Directive"

namespace TypeSystem

def mentioned (s : TypeSystem) (name : String) : List String :=
  match s.types.get? name with
  | some (.object fields) => fields.flatMap Outline.fieldReferences
  | some (.input fields) => fields.map (·.type.base)
  | _ => []

def mentionedWithin (s : TypeSystem) : Nat → List String → List String
  | 0, names => names
  | n + 1, names => mentionedWithin s n (names ++ names.flatMap s.mentioned).eraseDups

def roots (s : TypeSystem) : List String :=
  if s.hasMutation then ["Query", "Mutation"] else ["Query"]

def insertText (s : String) : List String → List String
  | [] => [s]
  | t :: rest => if s < t then s :: t :: rest else t :: insertText s rest

/-- The types that a schema shows: those that the root types lead to, the built-in ones and the
ones for descriptions, by name. -/
def visibleTypes (s : TypeSystem) : List String :=
  let names := s.mentionedWithin s.types.length s.roots ++ TypeTable.builtIns ++
    TypeTable.metaTypes.keys
  names.eraseDups.foldr insertText []

def kindText : TypeDefinition → String
  | .object _ => "OBJECT"
  | .input _ => "INPUT_OBJECT"
  | .enum _ => "ENUM"
  | .scalar => "SCALAR"

def namedProperty (name : String) (d : TypeDefinition) (property : String) : PartValue :=
  match property, d with
  | "kind", d => .ofText (kindText d)
  | "name", _ => .ofText name
  | "fields", .object fields => .parts (fields.map .field)
  | "interfaces", .object _ => .parts []
  | "enumValues", .enum values => .parts (values.map .enumValue)
  | "inputFields", .input fields => .parts (fields.map .input)
  | "isOneOf", .input _ => .leaf (.bool false)
  | _, _ => .nothing

def wrapperProperty (kind : String) (inner : TypeRef) (property : String) : PartValue :=
  match property with
  | "kind" => .ofText kind
  | "ofType" => .part (.type inner)
  | _ => .nothing

def property (s : TypeSystem) (p : Part) (name : String) : PartValue :=
  match p, name with
  | p, "__typename" => .ofText p.typeName
  | .schema, "types" => .types s.visibleTypes
  | .schema, "queryType" => .part (.type (.named "Query"))
  | .schema, "mutationType" =>
      if s.hasMutation then .part (.type (.named "Mutation")) else .nothing
  | .schema, "directives" => .parts (knownDirectives.map .directive)
  | .type (.list inner), name => wrapperProperty "LIST" inner name
  | .type (.nonNull inner), name => wrapperProperty "NON_NULL" inner name
  | .type (.named type), name =>
      match s.types.get? type with
      | some d => namedProperty type d name
      | none => .nothing
  | .field f, "name" => .ofText f.name
  | .field f, "args" => .parts (f.arguments.map .input)
  | .field f, "type" => .part (.type f.type)
  | .input i, "name" => .ofText i.name
  | .input i, "type" => .part (.type i.type)
  | .input i, "defaultValue" =>
      match i.default? with
      | some d => .ofText d.text
      | none => .nothing
  | .enumValue n, "name" => .ofText n
  | .directive d, "name" => .ofText d.name
  | .directive d, "locations" => .leaf (.array (d.locations.map .string))
  | .directive d, "args" => .parts (d.arguments.map .input)
  | .directive _, "isRepeatable" => .leaf (.bool false)
  | _, "isDeprecated" => .leaf (.bool false)
  | _, _ => .nothing

mutual

/-- The entry that a call asks for of a part. -/
def describeCall (s : TypeSystem) (p : Part) : Query.Call → String × Json
  | ⟨key, name, _, children⟩ =>
      (key,
        match s.property p name with
        | .leaf v => v
        | .part p => .ofEntries (describe s p children)
        | .parts ps => .array (ps.map fun p => .ofEntries (describe s p children)))

def describe (s : TypeSystem) (p : Part) : List Query.Call → List (String × Json)
  | [] => []
  | c :: rest => describeCall s p c :: describe s p rest

end

def describeSchema (s : TypeSystem) (calls : List Query.Call) : Json :=
  .ofEntries (describe s .schema calls)

/-- The answer about one type, null if the schema does not show it. -/
def describeType (s : TypeSystem) (name : String) (calls : List Query.Call) : Json :=
  if s.visibleTypes.contains name then .ofEntries (describe s (.type (.named name)) calls)
  else .null

end TypeSystem

end Service

end EntityGraph
