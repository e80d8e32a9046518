import EntityGraph.Schema.Synthesis

/-!
A blueprint is what entities and options amount to once they are found to fit together. The
schema document is written from it, and requests are answered by it.
-/

namespace EntityGraph

structure Blueprint where
  registry : Registry
  protocol : ArgumentProtocol
  options : Options
deriving Repr

namespace Blueprint

/-- An entity must declare a field of its own; the added ones do not count. -/
def ofEntities (entities : List Entity) (o : Options) : Except SchemaError Blueprint := do
  match entities.find? (·.fields.isEmpty) with
  | some e => throw (.missingFields e.name)
  | none => pure ()
  let registry ← Registry.ofList (entities.map (·.mergedWith o.extendProps))
  let protocol ← ArgumentProtocol.ofOptions o.queryOptions
  return ⟨registry, protocol, o⟩

def document (b : Blueprint) : List Schema.Block := Schema.blocks b.registry b.protocol b.options

def documentText (b : Blueprint) : String := Schema.documentText b.document

end Blueprint

end EntityGraph
