import EntityGraph.Proofs.ExactPlans
import EntityGraph.Proofs.KeyedCalls
import EntityGraph.Proofs.LongestSuffix
import EntityGraph.Proofs.RootAnswers

/-!
What the key arguments of the root queries do to the plan. They are read as any other arguments of a
level, so the plan keeps to the key alone where their names mean nothing to the level: no filter of
one of its scalars, and no page. Where a name means something, the row under the key may be filtered
or paged away.
-/

namespace EntityGraph

/-- Nothing but the columns and the relations is asked for at the level. -/
structure FetchPlan.Bare (p : FetchPlan) : Prop where
  predicates : p.predicates = []
  ordering : p.ordering = []
  limit : p.limit? = none
  offset : p.offset? = none

namespace Compiler

variable (c : Compiler) {e : Entity} {key : String} {value : Json} {m : Modifier}

end Compiler

namespace MemoryStore

variable {r : Registry} {s : MemoryStore} {name : String} {e : Entity} {primary : String}

end MemoryStore

namespace Blueprint

open Exec Executor

variable {b : Blueprint} {e : Entity} {request : Request} {name primary : String}

variable {entities : List Entity} {o : Options}

end Blueprint

namespace Catalog

/-- Messages are kept by their offsets. -/
def message : Entity where
  name := "Message"
  table := none
  fields := [("offset", .scalar ⟨"integer"⟩), ("text", .scalar ⟨"string"⟩)]
  relations := []
  api := { primaryField := some "offset" }

end Catalog
end EntityGraph
