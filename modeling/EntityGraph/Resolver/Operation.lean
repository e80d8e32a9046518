import EntityGraph.Selection
import EntityGraph.Options
import EntityGraph.RequestError

/-!
What can stand behind a field: one of the five default operations on an entity, which a hook may
take over, or a resolver of its own.
-/

namespace EntityGraph

/-- Everything that is known of the field being resolved. -/
structure Request where
  typeName : String
  field : String
  arguments : Row := []
  parent : Option Json := none
  selection : Selection := []
  context : Option Json := none
deriving Repr

/-- Asked before a default operation. What it yields, unless it is nothing or null, is the
result of the operation. -/
structure Hook where
  name : String
  run : Request → Except RequestError (Option Json)

inductive OperationKind where
  | readOne
  | readMany
  | create
  | update
  | delete
deriving DecidableEq, Repr

def OperationKind.title : OperationKind → String
  | .readOne => "ReadOne"
  | .readMany => "ReadMany"
  | .create => "Create"
  | .update => "Update"
  | .delete => "Delete"

structure DefaultOperation where
  kind : OperationKind
  entity : String
  hook : Option Hook := none

inductive Operation where
  | standard (op : DefaultOperation)
  | custom (run : Request → Except RequestError Json)

namespace Operation

def entity? : Operation → Option String
  | .standard op => some op.entity
  | .custom _ => none

def hook? : Operation → Option Hook
  | .standard op => op.hook
  | .custom _ => none

def title : Operation → String
  | .standard op => op.kind.title ++ "(" ++ op.entity ++ ")"
  | .custom _ => "Custom(..)"

end Operation

structure Hooks where
  readOne : Option Hook := none
  readMany : Option Hook := none
  create : Option Hook := none
  update : Option Hook := none
  delete : Option Hook := none

/-- Hooks for the reads: one for both, or each its own. -/
inductive QueryFunction where
  | all (hook : Hook)
  | split (single multi : Option Hook)

/-- Hooks for the writes: one for all three, or each its own. -/
inductive MutationFunction where
  | all (hook : Hook)
  | split (create update delete : Option Hook)

namespace Hooks

/-- A split setting replaces only the hooks that it names. -/
def applyQuery (h : Hooks) : QueryFunction → Hooks
  | .all hook => { h with readOne := some hook, readMany := some hook }
  | .split single multi =>
      { h with readOne := single.or h.readOne, readMany := multi.or h.readMany }

def applyMutation (h : Hooks) : MutationFunction → Hooks
  | .all hook => { h with create := some hook, update := some hook, delete := some hook }
  | .split create update delete =>
      { h with
        create := create.or h.create
        update := update.or h.update
        delete := delete.or h.delete }

def of (h : Hooks) : OperationKind → Option Hook
  | .readOne => h.readOne
  | .readMany => h.readMany
  | .create => h.create
  | .update => h.update
  | .delete => h.delete

def text (h : Hooks) : String :=
  let word (hook : Option Hook) : String := if hook.isSome then "true" else "false"
  "Hooks \x7b read_one: " ++ word h.readOne ++ ", read_many: " ++ word h.readMany ++
    ", create: " ++ word h.create ++ ", update: " ++ word h.update ++
    ", delete: " ++ word h.delete ++ " \x7d"

end Hooks

/-- Resolvers that take the place of generated ones for one entity. -/
structure EntityResolvers where
  query : Dict Operation := []
  mutation : Dict Operation := []

/-- What is supplied from outside: hooks, and resolvers in place of generated ones. -/
structure Customization where
  hooks : Hooks := {}
  query : Dict Operation := []
  mutation : Dict Operation := []
  entities : Dict EntityResolvers := []
  types : Dict (Dict Operation) := []

namespace Customization

def withQueryFunction (c : Customization) (f : QueryFunction) : Customization :=
  { c with hooks := c.hooks.applyQuery f }

def withMutationFunction (c : Customization) (f : MutationFunction) : Customization :=
  { c with hooks := c.hooks.applyMutation f }

def withQueryResolver (c : Customization) (name : String) (op : Operation) : Customization :=
  { c with query := Dict.insert c.query name op }

def withMutationResolver (c : Customization) (name : String) (op : Operation) : Customization :=
  { c with mutation := Dict.insert c.mutation name op }

def withTypeResolvers (c : Customization) (type : String) (fields : Dict Operation) :
    Customization :=
  { c with types := Dict.insert c.types type fields }

def withEntityResolvers (c : Customization) (entity : String) (r : EntityResolvers) :
    Customization :=
  { c with entities := Dict.insert c.entities entity r }

end Customization

end EntityGraph
