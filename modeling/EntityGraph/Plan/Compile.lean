import EntityGraph.Plan.Basic
import EntityGraph.Selection
import EntityGraph.Argument.Protocol
import EntityGraph.Entity.Registry

/-!
Compiling a selection and its arguments into a fetch plan. Every level takes its modifiers from
its own arguments. With a registry, names are looked up on the level's entity and unknown ones
are passed over; without one, every field with children is a relation.
-/

namespace EntityGraph

structure Compiler where
  registry : Option Registry
  protocol : ArgumentProtocol

namespace Compiler

/-- What the nodes of one level ask for. -/
structure Level where
  selected : List String := []
  relations : List (String × FetchPlan) := []

namespace Level

def addColumn (l : Level) (name : String) : Level :=
  if l.selected.contains name then l else { l with selected := l.selected ++ [name] }

def addRelation (l : Level) (name : String) (plan : FetchPlan) : Level :=
  { l with relations := Dict.insert l.relations name plan }

end Level

/-- Whether a column may be named by an argument of the level. -/
def knows (entity : Option Entity) (field : String) : Bool :=
  match entity with
  | some e => e.hasScalar field
  | none => true

def modifierOf (c : Compiler) (entity : Option Entity) (key : String) (value : Json) :
    Option Modifier :=
  match c.protocol.decode key with
  | .filter field op =>
      if knows entity field then (op.normalize value).map fun v => .filter ⟨field, op, v⟩ else none
  | .paging .orderBy => orderOf entity value false
  | .paging .orderByDesc => orderOf entity value true
  | .paging .limit => value.nat?.map .limit
  | .paging .offset => value.nat?.map .offset
  | .ignored => none
where
  orderOf (entity : Option Entity) (value : Json) (descending : Bool) : Option Modifier :=
    match value with
    | .string field => if knows entity field then some (.orderBy field descending) else none
    | _ => none

def modifiersOf (c : Compiler) (entity : Option Entity) (arguments : Row) : List Modifier :=
  arguments.filterMap fun (key, value) => c.modifierOf entity key value

def assemble (c : Compiler) (entity : Option Entity) (arguments : Row) (shownAs : Option String)
    (l : Level) : FetchPlan :=
  { shownAs := shownAs
    relations := l.relations
    modifiers := .select l.selected :: c.modifiersOf entity arguments }

def target (c : Compiler) (name : String) : Option Entity := c.registry.bind (·.get? name)

mutual

def addNode (c : Compiler) (entity : Option Entity) (l : Level) : FieldNode → Level
  | ⟨name, arguments, children⟩ =>
      match entity with
      | none =>
          if children.isEmpty then l.addColumn name
          else
            l.addRelation name
              (c.assemble none arguments none (addNodes c none {} children))
      | some e =>
          match e.resolve? name with
          | some (.scalar _) => l.addColumn name
          | some (.relation relation r) =>
              let target := c.target r.target
              let shownAs := if name = relation then none else some name
              l.addRelation relation
                (c.assemble target arguments shownAs (addNodes c target {} children))
          | none => l

def addNodes (c : Compiler) (entity : Option Entity) (l : Level) : List FieldNode → Level
  | [] => l
  | n :: rest => addNodes c entity (addNode c entity l n) rest

end

def compile (c : Compiler) (entity : String) (selection : Selection) (arguments : Row) :
    FetchPlan :=
  let e := c.target entity
  c.assemble e arguments none (c.addNodes e {} selection)

end Compiler

end EntityGraph
