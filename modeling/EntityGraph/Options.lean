import EntityGraph.Entity.Basic

/-!
The part of the configuration that is plain data: switches for operators and mutations, schema
text to be added, and fields that every entity gets.
-/

namespace EntityGraph

inductive OperatorSetting where
  | enabled (on : Bool)
  /-- Enabled under another suffix or argument name. -/
  | renamed (name : String)
deriving DecidableEq, Repr

inductive QueryOptions where
  /-- Off means no default queries. -/
  | toggle (on : Bool)
  | operators (settings : Dict OperatorSetting)
deriving DecidableEq, Repr

namespace QueryOptions

def areEnabled : QueryOptions → Bool
  | .toggle on => on
  | .operators _ => true

/-- What is not mentioned is enabled. -/
def setting (o : QueryOptions) (key : String) : OperatorSetting :=
  match o with
  | .operators settings => (Dict.get? settings key).getD (.enabled true)
  | .toggle _ => .enabled true

end QueryOptions

inductive MutationKind where
  | create
  | update
  | delete
deriving DecidableEq, Repr

inductive MutationOptions where
  | toggle (on : Bool)
  | operations (create update delete : Bool)
deriving DecidableEq, Repr

def MutationOptions.allows : MutationOptions → MutationKind → Bool
  | .toggle on, _ => on
  | .operations create _ _, .create => create
  | .operations _ update _, .update => update
  | .operations _ _ delete, .delete => delete

structure Options where
  queryOptions : QueryOptions := .toggle true
  mutationOptions : MutationOptions := .toggle true
  /-- Schema text that follows the entity types. -/
  extendTypes : String := ""
  /-- Schema text inside the query type. -/
  extendQueries : String := ""
  /-- Schema text inside the mutation type. -/
  extendMutations : String := ""
  extendProps : Dict Field := []
deriving DecidableEq, Repr

end EntityGraph
