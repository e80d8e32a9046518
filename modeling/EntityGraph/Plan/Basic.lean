import EntityGraph.Argument.Operator

/-!
A fetch plan says what one level of a nested read selects, filters, orders and pages, and which
relations it expands, each with a plan of its own.
-/

namespace EntityGraph

structure Predicate where
  field : String
  op : FilterOp
  value : Json
deriving Repr

inductive Modifier where
  | select (fields : List String)
  | filter (predicate : Predicate)
  | orderBy (field : String) (descending : Bool)
  | limit (count : Nat)
  | offset (count : Nat)
deriving Repr

structure FetchPlan where
  /-- The name of the level in the output, where it is not that of the relation. -/
  shownAs : Option String
  relations : List (String × FetchPlan)
  modifiers : List Modifier
deriving Repr

structure SortKey where
  field : String
  descending : Bool
deriving DecidableEq, Repr

namespace Modifier

def selected? : Modifier → Option (List String)
  | .select fields => some fields
  | _ => none

def predicate? : Modifier → Option Predicate
  | .filter p => some p
  | _ => none

def sortKey? : Modifier → Option SortKey
  | .orderBy field descending => some ⟨field, descending⟩
  | _ => none

def limit? : Modifier → Option Nat
  | .limit n => some n
  | _ => none

def offset? : Modifier → Option Nat
  | .offset n => some n
  | _ => none

end Modifier

namespace FetchPlan

/-- No relations and no modifiers: every scalar field of every row. -/
def empty : FetchPlan := ⟨none, [], []⟩

instance : Inhabited FetchPlan := ⟨empty⟩

def selectAll (e : Entity) : FetchPlan := ⟨none, [], [.select e.scalarNames]⟩

/-- The fields named by the first selection. -/
def selected? (p : FetchPlan) : Option (List String) := p.modifiers.findSome? Modifier.selected?

def predicates (p : FetchPlan) : List Predicate := p.modifiers.filterMap Modifier.predicate?

def ordering (p : FetchPlan) : List SortKey := p.modifiers.filterMap Modifier.sortKey?

/-- The last limit counts. -/
def limit? (p : FetchPlan) : Option Nat := p.modifiers.reverse.findSome? Modifier.limit?

/-- The last offset counts. -/
def offset? (p : FetchPlan) : Option Nat := p.modifiers.reverse.findSome? Modifier.offset?

def outputName (p : FetchPlan) (relation : String) : String := p.shownAs.getD relation

/-- Expands a relation; a second plan for it takes the place of the first. -/
def withRelation (p : FetchPlan) (name : String) (child : FetchPlan) : FetchPlan :=
  { p with relations := Dict.insert p.relations name child }

end FetchPlan

end EntityGraph
