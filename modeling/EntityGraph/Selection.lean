import EntityGraph.Json.Basic

/-!
What a request asks for: a tree of field names, each with its arguments.
-/

namespace EntityGraph

structure FieldNode where
  name : String
  arguments : List (String × Json)
  children : List FieldNode
deriving Repr

/-- The nodes below a field. -/
abbrev Selection := List FieldNode

namespace FieldNode

def leaf (name : String) : FieldNode := ⟨name, [], []⟩

instance : Inhabited FieldNode := ⟨leaf ""⟩

end FieldNode

end EntityGraph
