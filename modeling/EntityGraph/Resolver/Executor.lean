import EntityGraph.Resolver.Map
import EntityGraph.Plan.Compile
import EntityGraph.Store.Memory

/-!
Carrying out operations on a store. A hook has the first word, and an operation turns to the
store at most once. Everything that is asked of hooks, resolvers and the store is recorded.
-/

namespace EntityGraph

/-- A store as operations see it: four actions on its state. -/
structure Storage (σ : Type) where
  select : String → KeyScope → FetchPlan → ExceptT RequestError (StateM σ) (List Json)
  insert : String → Row → ExceptT RequestError (StateM σ) Json
  patch : String → Json → Row → ExceptT RequestError (StateM σ) (Option Json)
  delete : String → Json → ExceptT RequestError (StateM σ) Nat

inductive Event where
  | hook (name : String) (request : Request)
  | custom (request : Request)
  | select (entity : String) (scope : KeyScope) (plan : FetchPlan)
  | insert (entity : String) (row : Row)
  | patch (entity : String) (key : Json) (row : Row)
  | delete (entity : String) (key : Json)

/-- The store, and what has happened so far. -/
structure World (σ : Type) where
  store : σ
  events : List Event := []

abbrev Exec (σ α : Type) := ExceptT RequestError (StateM (World σ)) α

structure Executor (σ : Type) where
  registry : Registry
  protocol : ArgumentProtocol
  storage : Storage σ
  resolvers : ResolverMap

namespace Exec

variable {σ α : Type}

def record (e : Event) : Exec σ Unit := fun w => (.ok (), { w with events := w.events ++ [e] })

def fromResult (r : Except RequestError α) : Exec σ α := ExceptT.mk (pure r)

/-- An action on the store, recorded as an event. -/
def onStore (e : Event) (action : ExceptT RequestError (StateM σ) α) : Exec σ α := fun w =>
  let (result, store) := action.run.run w.store
  (result, ⟨store, w.events ++ [e]⟩)

end Exec

namespace Executor

variable {σ : Type}

open Exec

def entity (x : Executor σ) (name : String) : Exec σ Entity :=
  match x.registry.get? name with
  | some e => return e
  | none => throw (.unknownEntity name)

def primaryField (e : Entity) : Exec σ String :=
  match e.primaryField with
  | some primary => return primary
  | none => throw (.invalidArgument e.name "entity has no primary field")

def requiredArgument (arguments : Row) (name : String) : Exec σ Json :=
  let v := Json.field arguments name
  if v.isNull then throw (.invalidArgument name "required") else return v

def inputArgument (arguments : Row) (name : String) : Exec σ Row :=
  match Dict.get? arguments name with
  | some (.object input) => return input
  | _ => throw (.invalidArgument name "expected an input object")

/-- What the hook says, unless that is nothing or null. -/
def runHook (op : DefaultOperation) (request : Request) : Exec σ (Option Json) := do
  match op.hook with
  | none => return none
  | some hook =>
      record (.hook hook.name request)
      match ← fromResult (hook.run request) with
      | some v => return if v.isNull then none else some v
      | none => return none

def plan (x : Executor σ) (e : Entity) (request : Request) : FetchPlan :=
  (Compiler.mk (some x.registry) x.protocol).compile e.name request.selection request.arguments

def select (x : Executor σ) (e : Entity) (scope : KeyScope) (request : Request) :
    Exec σ (List Json) :=
  let plan := x.plan e request
  onStore (.select e.name scope plan) (x.storage.select e.name scope plan)

def readOne (x : Executor σ) (op : DefaultOperation) (request : Request) : Exec σ Json := do
  let e ← x.entity op.entity
  let primary ← primaryField e
  let key ← requiredArgument request.arguments primary
  match ← runHook op request with
  | some v => return v
  | none =>
      match ← x.select e (.one key) request with
      | row :: _ => return row
      | [] => throw (.notFound e.name key)

/-- The keys of a read of many, if the request names any. -/
def keysOf (e : Entity) (request : Request) : Option (List Json) := do
  let primary ← e.primaryField
  let v ← Dict.get? request.arguments (primary ++ "Array")
  v.array?

def readMany (x : Executor σ) (op : DefaultOperation) (request : Request) : Exec σ Json := do
  let e ← x.entity op.entity
  match ← runHook op request with
  | some v => return v
  | none =>
      let scope :=
        match keysOf e request with
        | some keys => KeyScope.many keys
        | none => KeyScope.all
      return .array (← x.select e scope request)

def create (x : Executor σ) (op : DefaultOperation) (request : Request) : Exec σ Json := do
  match ← runHook op request with
  | some v => return v
  | none =>
      let e ← x.entity op.entity
      let input ← inputArgument request.arguments e.camelName
      onStore (.insert e.name input) (x.storage.insert e.name input)

def update (x : Executor σ) (op : DefaultOperation) (request : Request) : Exec σ Json := do
  match ← runHook op request with
  | some v => return v
  | none =>
      let e ← x.entity op.entity
      let primary ← primaryField e
      let key ← requiredArgument request.arguments primary
      let input ← inputArgument request.arguments e.camelName
      match ← onStore (.patch e.name key input) (x.storage.patch e.name key input) with
      | some row => return row
      | none => throw (.notFound e.name key)

def delete (x : Executor σ) (op : DefaultOperation) (request : Request) : Exec σ Json := do
  match ← runHook op request with
  | some v => return v
  | none =>
      let e ← x.entity op.entity
      let primary ← primaryField e
      let key ← requiredArgument request.arguments primary
      let removed ← onStore (.delete e.name key) (x.storage.delete e.name key)
      return .bool (0 < removed)

def dispatch (x : Executor σ) (op : Operation) (request : Request) : Exec σ Json :=
  match op with
  | .custom run => do
      record (.custom request)
      fromResult (run request)
  | .standard op =>
      match op.kind with
      | .readOne => x.readOne op request
      | .readMany => x.readMany op request
      | .create => x.create op request
      | .update => x.update op request
      | .delete => x.delete op request

/-- Carries out the operation behind the request's field. -/
def resolve (x : Executor σ) (request : Request) : Exec σ Json :=
  match x.resolvers.get? request.typeName request.field with
  | some op => x.dispatch op request
  | none => throw (.unknownOperation request.typeName request.field)

end Executor

namespace MemoryStore

/-- An action that leaves the store as it was when it fails. -/
def action {α : Type} (f : MemoryStore → Except RequestError (α × MemoryStore)) :
    ExceptT RequestError (StateM MemoryStore) α := fun s =>
  match f s with
  | .ok (v, s) => (.ok v, s)
  | .error e => (.error e, s)

def storage (r : Registry) : Storage MemoryStore :=
  { select := fun entity scope plan =>
      action fun s => (select r s entity scope plan).map fun rows => (rows, s)
    insert := fun entity row => action fun s => insert r s entity row
    patch := fun entity key row => action fun s => patch r s entity key row
    delete := fun entity key => action fun s => delete r s entity key }

end MemoryStore

namespace Blueprint

/-- The executor over a store of its own rows. -/
def executor (b : Blueprint) (c : Customization) : Executor MemoryStore :=
  { registry := b.registry
    protocol := b.protocol
    storage := MemoryStore.storage b.registry
    resolvers := b.resolvers c }

end Blueprint

end EntityGraph
