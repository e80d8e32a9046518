import EntityGraph.Query.Document
import EntityGraph.Selection

/-!
Selections with the fragments written out. What stood in a fragment remains a group, so that the
rules for fragments can be checked; once they hold, groups and skipped fields are dropped and
calls of fields are left.
-/

namespace EntityGraph

namespace Query

inductive Piece where
  | field (key name : String) (arguments : List (String × Literal)) (directives : List Directive)
      (children : List Piece)
  /-- What a fragment selects. The name is that of the fragment, if it has one. -/
  | group (fragment on : Option String) (directives : List Directive) (children : List Piece)
deriving Repr

/-- Selection sets nest at most this deep below the outermost one, fragments included. -/
def maxDepth : Nat := 32

/-- The node with fragments written out, if it nests at most `depth` deep. -/
def expandNode (d : Document) : Nat → Node → Option Piece
  | _, .field key name arguments directives [] => some (.field key name arguments directives [])
  | 0, _ => none
  | depth + 1, .field key name arguments directives children =>
      (children.mapM (expandNode d depth)).map (.field key name arguments directives)
  | depth + 1, .spread name directives => do
      let f ← d.fragment? name
      let children ← f.nodes.mapM (expandNode d depth)
      return .group (some name) (some f.on) directives children
  | depth + 1, .inline on directives children =>
      (children.mapM (expandNode d depth)).map (.group none on directives)

def Operation.pieces? (d : Document) (o : Operation) : Option (List Piece) :=
  o.nodes.mapM (expandNode d maxDepth)

/-- A call of a field: the key under which the result stands, and what is asked of the result. -/
structure Call where
  key : String
  name : String
  arguments : List (String × Literal)
  children : List Call
deriving Repr

/-- The condition of a directive. Only a given variable counts, not its default. -/
def conditionOf (given : Dict Literal) (d : Directive) : Bool :=
  match (Dict.get? d.arguments "if").map (Literal.substitute (Dict.get? given)) with
  | some (.ok (.bool b)) => b
  | _ => false

def isSkipped (given : Dict Literal) (directives : List Directive) : Bool :=
  directives.any fun d =>
    (d.name = "skip" && conditionOf given d) || (d.name = "include" && !conditionOf given d)

mutual

def Piece.calls (given : Dict Literal) : Piece → List Call
  | .field key name arguments directives children =>
      if isSkipped given directives then [] else [⟨key, name, arguments, callsOf given children⟩]
  | .group _ _ directives children =>
      if isSkipped given directives then [] else callsOf given children

def callsOf (given : Dict Literal) : List Piece → List Call
  | [] => []
  | p :: rest => p.calls given ++ callsOf given rest

end

mutual

def Piece.fragments : Piece → List String
  | .field _ _ _ _ children => fragmentsOf children
  | .group name _ _ children => name.toList ++ fragmentsOf children

def fragmentsOf : List Piece → List String
  | [] => []
  | p :: rest => p.fragments ++ fragmentsOf rest

end

end Query

end EntityGraph
