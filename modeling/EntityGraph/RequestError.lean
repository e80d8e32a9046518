import EntityGraph.Json.Text

/-!
The ways in which a request can fail, their texts and their codes.
-/

namespace EntityGraph

inductive RequestError where
  /-- A keyed read or update found nothing under the key. -/
  | notFound (entity : String) (key : Json)
  | unknownEntity (entity : String)
  | unknownOperation (type field : String)
  | invalidArgument (name reason : String)
  | storage (reason : String)
  /-- The database refused a statement, or a column could not be read as its type. -/
  | database
  /-- Raised by a hook or a resolver supplied from outside. -/
  | custom (message : String)
deriving Repr

namespace RequestError

/-- The text of the failure; the database has words of its own. -/
def message? : RequestError → Option String
  | .notFound entity key => some s!"{entity} with key {key.text} not found"
  | .unknownEntity entity => some s!"unknown entity {entity}"
  | .unknownOperation type field => some s!"no resolver registered for {type}.{field}"
  | .invalidArgument name reason => some s!"invalid argument {name}: {reason}"
  | .storage reason => some s!"storage error: {reason}"
  | .database => none
  | .custom message => some message

def code : RequestError → String
  | .notFound _ _ => "NOT_FOUND"
  | .invalidArgument _ _ => "BAD_USER_INPUT"
  | .unknownOperation _ _ => "UNKNOWN_OPERATION"
  | _ => "INTERNAL_SERVER_ERROR"

end RequestError

end EntityGraph
