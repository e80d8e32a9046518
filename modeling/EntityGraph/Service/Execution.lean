import EntityGraph.Query.Validation
import EntityGraph.Resolver.Executor
import EntityGraph.Service.Introspection

/-!
Answering requests. A request whose document keeps the rules is carried out call by call; a call
that fails is missing from the object that it belongs to, and its fault is noted. An object from
which everything is missing is null.
-/

namespace EntityGraph

structure Submission where
  text : String
  operation : Option String := none
  given : Row := []
deriving Repr

inductive Fault where
  /-- The operation behind a field failed. -/
  | refused (e : RequestError)
  /-- The request breaks a rule, or a value is not of the form that its type asks for. -/
  | malformed
deriving Repr

structure Response where
  data : Json
  faults : List Fault
deriving Repr

/-- A type system whose fields are resolved by an executor. -/
structure Service (σ : Type) where
  system : Service.TypeSystem
  executor : Executor σ

namespace Service

/-- What is known throughout a request. -/
structure Scope where
  declared : List Query.Variable
  given : Dict Literal
  context : Option Json

/-- The value of a variable. One that may be null is null unless it has another value. -/
def Scope.value? (s : Scope) (name : String) : Option Literal := do
  let v ← s.declared.find? (·.name = name)
  let unset := if v.type.isNonNull then none else some Literal.null
  ((Dict.get? s.given name).or v.default?).or unset

mutual

def nodeOf (s : Scope) : Query.Call → Except RequestError Selection
  | ⟨_, name, arguments, children⟩ =>
      if "__".toList.isPrefixOf name.toList then .ok []
      else
        match Literal.substituteFields s.value? arguments with
        | .error v => .error (.invalidArgument name s!"Variable {v} is not defined.")
        | .ok arguments => do
            let below ← selectionOf s children
            return [⟨name, Dict.ofList (Literal.fieldsToJson arguments), below⟩]

/-- The selection that resolvers see, without what asks about the schema. -/
def selectionOf (s : Scope) : List Query.Call → Except RequestError Selection
  | [] => .ok []
  | c :: rest => do
      let node ← nodeOf s c
      let nodes ← selectionOf s rest
      return node ++ nodes

end

/-- The arguments of a call as given, then the defaults of those that are not given. -/
def argumentsOf (s : Scope) (f : Schema.Field) (given : List (String × Literal)) :
    Except Fault Row :=
  match Literal.substituteFields s.value? given with
  | .error _ => .error .malformed
  | .ok given =>
      let defaults := f.arguments.filterMap fun i =>
        if Dict.contains given i.name then none else i.default?.map fun d => (i.name, d)
      .ok (Literal.fieldsToJson (given ++ defaults))

/-- The course of a request: what has happened, and what has failed. -/
structure Session (σ : Type) where
  world : World σ
  faults : List Fault := []

abbrev Run (σ α : Type) := ExceptT Fault (StateM (Session σ)) α

variable {σ : Type}

def Run.ofResult {α : Type} (r : Except Fault α) : Run σ α := ExceptT.mk (pure r)

def Run.ofExec {α : Type} (x : Exec σ α) : Run σ α := fun session =>
  let (result, world) := x.run session.world
  (result.mapError .refused, { session with world := world })

def note (f : Fault) : StateM (Session σ) Unit := fun session =>
  ((), { session with faults := session.faults ++ [f] })

def isRoot (type : String) : Bool := type = "Query" || type = "Mutation"

/-- The value behind a field: the roots' fields are operations, the others are too where a
resolver is set, else they are properties of the parent. -/
def fieldValue (s : Service σ) (scope : Scope) (type : String) (parent : Json) (f : Schema.Field)
    (c : Query.Call) : Run σ Json := do
  let arguments ← Run.ofResult (argumentsOf scope f c.arguments)
  let request (parent : Option Json) : Run σ Request := do
    let selection ← Run.ofResult ((selectionOf scope c.children).mapError .refused)
    return {
      typeName := type, field := f.name, arguments, parent, selection, context := scope.context }
  if isRoot type then
    Run.ofExec (s.executor.resolve (← request none))
  else
    match s.executor.resolvers.get? type f.name with
    | some op => Run.ofExec (s.executor.dispatch op (← request (some parent)))
    | none =>
        match parent with
        | .object fields => return Json.field fields f.name
        | _ => return .null

/-- A value that is there, in the form of a named type. -/
def completeNamed (s : Service σ) (object : String → Json → StateM (Session σ) Json)
    (name : String) (v : Json) : Run σ Json :=
  match s.system.types.get? name, v with
  | some .scalar, v => return v
  | some (.object _), v => ExceptT.lift (object name v)
  | some (.enum values), .string value =>
      if values.contains value then return v else throw .malformed
  | _, _ => throw .malformed

/-- A value that is there, in the form of a type. Inside a list null is a value like others. -/
def completeItem (s : Service σ) (object : String → Json → StateM (Session σ) Json) :
    TypeRef → Json → Run σ Json
  | .named name, v => s.completeNamed object name v
  | .nonNull type, v => s.completeItem object type v
  | .list item, .array items => .array <$> items.mapM (s.completeItem object item)
  | .list _, _ => throw .malformed

/-- The result of a field, null only where its type lets it be. -/
def complete (s : Service σ) (object : String → Json → StateM (Session σ) Json)
    (type : TypeRef) (v : Json) : Run σ Json :=
  if v.isNull then
    if type.isNonNull then throw .malformed else return .null
  else s.completeItem object type v

/-- The object that calls make, null when all of them have failed. -/
def objectOf (calls : List Query.Call) (entries : List (String × Json)) : Json :=
  if entries.isEmpty && !calls.isEmpty then .null else .ofEntries entries

def typeArgument (scope : Scope) (arguments : List (String × Literal)) : Option String :=
  match (Dict.get? arguments "name").map (Literal.substitute scope.value?) with
  | some (.ok (.string name)) => some name
  | _ => none

mutual

def runCall (s : Service σ) (scope : Scope) (type : String) (parent : Json) :
    Query.Call → Run σ Json
  | ⟨key, name, arguments, children⟩ =>
      if name = "__typename" then return .string type
      else if type = "Query" && name = "__schema" then return s.system.describeSchema children
      else if type = "Query" && name = "__type" then
        match typeArgument scope arguments with
        | some n => return s.system.describeType n children
        | none => throw .malformed
      else
        match s.system.types.field? type name with
        | none => throw .malformed
        | some f => do
            let v ← s.fieldValue scope type parent f ⟨key, name, arguments, children⟩
            let object (type : String) (v : Json) : StateM (Session σ) Json := do
              return objectOf children (← runCalls s scope type v children)
            s.complete object f.type v

/-- The entries of the calls that succeed; the faults of the others are noted. -/
def runCalls (s : Service σ) (scope : Scope) (type : String) (parent : Json) :
    List Query.Call → StateM (Session σ) (List (String × Json))
  | [] => return []
  | c :: rest => do
      match ← (runCall s scope type parent c).run with
      | .ok v => return (c.key, v) :: (← runCalls s scope type parent rest)
      | .error f =>
          note f
          runCalls s scope type parent rest

end

def refusal : Response := ⟨.null, [.malformed]⟩

/-- The operation that a submission is about, if its document keeps the rules, with the type it
begins at and its calls. -/
def calls? (s : Service σ) (q : Submission) (given : Dict Literal) :
    Option (Query.Operation × String × List Query.Call) := do
  let document ← Query.Document.read? q.text
  if !document.isValid s.system given then none
  let operation ← document.operation? q.operation
  let root ← operation.root? s.system
  let pieces ← operation.pieces? document
  return (operation, root, Query.callsOf given pieces)

def answer (s : Service σ) (q : Submission) (context : Option Json) :
    StateM (World σ) Response := fun world =>
  let given := Literal.ofFields q.given
  match s.calls? q given with
  | none => (refusal, world)
  | some (operation, root, calls) =>
      let scope : Scope := ⟨operation.declared, given, context⟩
      let (entries, session) := (s.runCalls scope root .null calls).run { world }
      (⟨objectOf calls entries, session.faults⟩, session.world)

end Service

namespace Blueprint

/-- The service over a store of its own rows. -/
def service (b : Blueprint) (c : Customization) : Except SchemaError (Service MemoryStore) := do
  let system ← Service.TypeSystem.ofText b.documentText
  return ⟨system, b.executor c⟩

end Blueprint

end EntityGraph
