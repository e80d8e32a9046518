import EntityGraph.Language.Term

/-!
Request documents: operations and the fragments that they share, read from their text.
-/

namespace EntityGraph

namespace Query

inductive Node where
  | field (key name : String) (arguments : List (String × Literal)) (directives : List Directive)
      (children : List Node)
  | spread (fragment : String) (directives : List Directive)
  | inline (on : Option String) (directives : List Directive) (children : List Node)
deriving Repr

inductive Kind where
  | query
  | mutation
  | subscription
deriving DecidableEq, Repr

structure Variable where
  name : String
  type : TypeRef
  default? : Option Literal
deriving Repr

structure Operation where
  kind : Kind
  name : Option String := none
  declared : List Variable := []
  directives : List Directive := []
  nodes : List Node
deriving Repr

structure Fragment where
  name : String
  on : String
  directives : List Directive
  nodes : List Node
deriving Repr

structure Document where
  operations : List Operation
  fragments : List Fragment
deriving Repr

open Scan

def typeCondition : Scan String := do
  word "on"
  name

/-- Selections that nest at most `fuel` deep. -/
def nodesWithin : Nat → Scan (List Node)
  | 0 => failure
  | fuel + 1 => do
      word "\x7b"
      let below := nodesWithin fuel
      let nodes ← many1 (fieldNode below <|> inlineNode below <|> spreadNode)
      word "\x7d"
      return nodes
where
  fieldNode (below : Scan (List Node)) : Scan Node := do
    let renamed ← maybe do
      let key ← name
      word ":"
      return key
    let n ← name
    let as ← maybe (arguments true)
    let ds ← directives true
    let children ← maybe below
    return .field (renamed.getD n) n (as.getD []) ds (children.getD [])
  inlineNode (below : Scan (List Node)) : Scan Node := do
    word "..."
    let on ← maybe typeCondition
    let ds ← directives true
    let children ← below
    return .inline on ds children
  spreadNode : Scan Node := do
    word "..."
    isNot typeCondition
    let n ← name
    let ds ← directives true
    return .spread n ds

def nodes : Scan (List Node) := nested nodesWithin

def variableDefinition : Scan Variable := do
  let n ← variableName
  word ":"
  let t ← type
  let _ ← directives true
  let d ← maybe do
    word "="
    value false
  return ⟨n, t, d⟩

def kind : Scan Kind :=
  (do word "query"; return .query) <|> (do word "mutation"; return .mutation) <|>
    (do word "subscription"; return .subscription)

def operation : Scan Operation :=
  (do
    let k ← kind
    let n ← maybe name
    let vs ← maybe do
      word "("
      let vs ← many variableDefinition
      word ")"
      return vs
    let ds ← directives true
    let ns ← nodes
    return ⟨k, n, vs.getD [], ds, ns⟩) <|>
  (do
    let ns ← nodes
    return { kind := .query, nodes := ns })

def fragment : Scan Fragment := do
  word "fragment"
  let n ← name
  let on ← typeCondition
  let ds ← directives true
  let ns ← nodes
  return ⟨n, on, ds, ns⟩

namespace Document

def ofItems : List (Operation ⊕ Fragment) → Document
  | [] => ⟨[], []⟩
  | .inl o :: rest => let d := ofItems rest; { d with operations := o :: d.operations }
  | .inr f :: rest => let d := ofItems rest; { d with fragments := f :: d.fragments }

/-- There is an operation, one without a name stands alone, and no name is given twice. -/
def isCoherent (d : Document) : Bool :=
  (match d.operations with
    | [] => false
    | [_] => true
    | operations => operations.all (·.name.isSome)) &&
  decide (d.operations.filterMap (·.name)).Nodup && decide (d.fragments.map (·.name)).Nodup

def read? (text : String) : Option Document := do
  let items ← whole? (many1 ((.inl <$> operation) <|> (.inr <$> fragment))) text
  let d := ofItems items
  if d.isCoherent then some d else none

/-- The operation that a request is about. Without a name it is the only one. -/
def operation? (d : Document) (name : Option String) : Option Operation :=
  match name, d.operations with
  | none, [o] => some o
  | none, _ => none
  | some n, operations => operations.find? (·.name = some n)

def fragment? (d : Document) (name : String) : Option Fragment :=
  d.fragments.find? (·.name = name)

end Document

end Query

end EntityGraph
