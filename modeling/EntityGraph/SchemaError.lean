import EntityGraph.Text.Quoted

/-!
The faults of a set of entity descriptors, found before any schema exists.
-/

namespace EntityGraph

inductive SchemaError where
  | missingFields (entity : String)
  | duplicateEntity (entity : String)
  | unresolvedRelation (entity field relation : String)
  | unknownTarget (entity relation target : String)
  | invalidThrough (entity relation via : String)
  | emptyPrimaryField (entity : String)
  | invalidSuffix (suffix : String)
  /-- The schema document declares no query type. -/
  | noQueryType
  /-- The schema document cannot be read or does not make a schema. -/
  | invalidDocument
deriving DecidableEq, Repr

namespace SchemaError

/-- The text of the fault; a document that is not a schema has none of its own. -/
def message? : SchemaError → Option String
  | .missingFields e => some s!"{e} has no fields declared"
  | .duplicateEntity e => some s!"entity {e} is declared more than once"
  | .unresolvedRelation e f r =>
      some s!"{e}.{f} is a relation field but no relation named {r} exists"
  | .unknownTarget e r t => some s!"relation {e}.{r} targets unknown entity {t}"
  | .invalidThrough e r v =>
      some s!"relation {e}.{r} goes through {v}, which is not a one/many relation of {e}"
  | .emptyPrimaryField e =>
      some s!"{e} generates default mutations but its primary field name is empty"
  | .invalidSuffix s =>
      some ("argument suffix " ++ Text.quoted s ++ " is empty or used by more than one operator")
  | .noQueryType => some "invalid schema document: schema document declares no Query type"
  | .invalidDocument => none

end SchemaError

end EntityGraph
