import EntityGraph.Proofs.Ordering
import EntityGraph.Proofs.Registry
import EntityGraph.Store.Memory

/-!
What a nested read means, one row at a time: the object of a row is made from its own columns,
and the rows of a relation are looked up among all stored rows for this one owner. Nothing is
fetched in common, so no key list, no grouping and no column for joining comes into it.
-/

namespace EntityGraph

/-- Two values join: both have a join key, and it is the same. -/
def Json.joins (a b : Json) : Bool := a.joinKey.isSome && a.joinKey == b.joinKey

theorem Json.joins_iff {a b : Json} :
    a.joins b = true ↔ ∃ key, a.joinKey = some key ∧ b.joinKey = some key := by
  rw [joins, Bool.and_eq_true, beq_iff_eq, Option.isSome_iff_exists]
  constructor
  · intro h
    obtain ⟨⟨key, h⟩, same⟩ := h
    exact ⟨key, h, same ▸ h⟩
  · intro h
    obtain ⟨key, h, h'⟩ := h
    exact ⟨⟨key, h⟩, h.trans h'.symm⟩

/-- One row for each join key in the column, the first of those that have it. -/
def firstPerKey (column : String) (rows : List Row) : List Row :=
  rows.eraseDupsBy fun a b => (Json.field a column).joins (Json.field b column)

/-- The value of a relation in the output. -/
def Relation.present (rel : Relation) (values : List Json) : Json :=
  if rel.cardinality.isList then .array values else values.head?.getD .null

namespace MemoryStore

variable (r : Registry) (s : MemoryStore)

/-- A row of the target belongs to the owner: their columns join, through a stored row of the
middle entity where the relation leads through one. -/
def related (e : Entity) (rel : Relation) (owner row : Row) : Bool :=
  match rel.cardinality with
  | .manyThrough via =>
      match e.relation? via with
      | none => false
      | some link =>
          match r.get? link.target with
          | none => false
          | some middle =>
              (s.table middle.name).rows.any fun between =>
                (Json.field owner link.join.near).joins (Json.field between link.join.far) &&
                  (Json.field between rel.join.near).joins (Json.field row rel.join.far)
  | _ => (Json.field owner rel.join.near).joins (Json.field row rel.join.far)

/-- The stored rows of a level that are in its reach and pass its predicates, in its order. -/
def levelRows (e : Entity) (plan : FetchPlan) (within : Row → Bool) : List Row :=
  SortKey.sorted plan.ordering
    ((s.table e.name).rows.filter fun row => within row && plan.predicates.all (·.holds row))

/-- The rows of a relation for one owner. A relation through a middle yields one row for each
value that is linked. -/
def childRows (e : Entity) (rel : Relation) (target : Entity) (child : FetchPlan) (owner : Row) :
    List Row :=
  let rows := s.levelRows target child (s.related r e rel owner)
  page child.offset? child.limit?
    (if rel.cardinality.isThrough then firstPerKey rel.join.far rows else rows)

mutual

/-- The selected columns, then the relations in the order of the plan. -/
def objectOf (e : Entity) (row : Row) : FetchPlan → Row
  | ⟨shownAs, relations, modifiers⟩ =>
      (FetchPlan.columnsOf ⟨shownAs, relations, modifiers⟩ e).map
        (fun column => (column, Json.field row column)) ++ entriesOf e row relations

def entriesOf (e : Entity) (row : Row) : List (String × FetchPlan) → Row
  | [] => []
  | (name, child) :: rest =>
      match e.relation? name with
      | none => entriesOf e row rest
      | some rel =>
          match r.get? rel.target with
          | none => entriesOf e row rest
          | some target =>
              (child.outputName name,
                rel.present ((childRows r s e rel target child row).map fun found =>
                  .object (objectOf target found child))) :: entriesOf e row rest

end

def inScope (e : Entity) : KeyScope → Row → Bool
  | .all, _ => true
  | .one key, row => e.primaryField.any fun primary => (Json.field row primary).equal key
  | .many keys, row => e.primaryField.any fun primary => keys.any (Json.field row primary).equal

/-- The answer to a nested read, each row on its own. -/
def readEach (e : Entity) (scope : KeyScope) (plan : FetchPlan) : List Json :=
  (page plan.offset? plan.limit? (s.levelRows e plan (inScope e scope))).map fun row =>
    .object (s.objectOf r e row plan)

end MemoryStore

/-! What the registry and the stored values must be like for the two ways of reading to agree. -/

namespace Registry

/-- The column takes part in a relation: on its near side, on its far side, or on the near side
of a relation through a middle, where the column belongs to the middle entity. -/
inductive JoinColumn (r : Registry) : Entity → String → Prop
  | near {e : Entity} {name : String} {rel : Relation} :
      r.Has e → e.relation? name = some rel → rel.cardinality.isThrough = false →
      JoinColumn r e rel.join.near
  | far {e target : Entity} {name : String} {rel : Relation} :
      r.Has e → e.relation? name = some rel → r.get? rel.target = some target →
      JoinColumn r target rel.join.far
  | middle {e between : Entity} {name via : String} {rel link : Relation} :
      r.Has e → e.relation? name = some rel → rel.cardinality = .manyThrough via →
      e.relation? via = some link → r.get? link.target = some between →
      JoinColumn r between rel.join.near

/-- Primary fields and join columns are declared scalars. -/
structure ColumnsDeclared (r : Registry) : Prop where
  primary : ∀ e, r.Has e → ∀ column, e.primaryField = some column → e.hasScalar column = true
  join : ∀ e column, r.JoinColumn e column → e.hasScalar column = true

/-- A plan on an entity has, somewhere below or at its root, the given level. -/
inductive Reaches (r : Registry) : Entity → FetchPlan → Entity → FetchPlan → Prop
  | root {e : Entity} {plan : FetchPlan} : Reaches r e plan e plan
  | relation {e target e' : Entity} {plan child plan' : FetchPlan} {name : String}
      {rel : Relation} :
      (name, child) ∈ plan.relations → e.relation? name = some rel →
      r.get? rel.target = some target → Reaches r target child e' plan' →
      Reaches r e plan e' plan'

theorem expansion?_eq_some {r : Registry} {e : Entity} {name : String} {child : FetchPlan}
    {x : Expansion} (h : r.expansion? e name child = some x) :
    e.relation? name = some x.relation ∧ r.get? x.relation.target = some x.target ∧
      x.output = child.outputName name := by
  unfold Registry.expansion? at h
  obtain ⟨relation, hrel, h⟩ := Option.bind_eq_some_iff.mp h
  obtain ⟨target, htarget, h⟩ := Option.bind_eq_some_iff.mp h
  split at h
  · obtain ⟨link, _, made⟩ := Option.bind_eq_some_iff.mp h
    cases made
    exact ⟨hrel, htarget, rfl⟩
  · cases h
    exact ⟨hrel, htarget, rfl⟩

/-- A relation that a read expands is one that leads to a level. -/
theorem Reaches.expanded {r : Registry} {e e' : Entity} {plan child plan' : FetchPlan}
    {name : String} {x : Expansion} (asked : (name, child) ∈ plan.relations)
    (h : r.expansion? e name child = some x) (below : r.Reaches x.target child e' plan') :
    r.Reaches e plan e' plan' := by
  obtain ⟨hrel, htarget, _⟩ := expansion?_eq_some h
  exact .relation asked hrel htarget below

end Registry

namespace MemoryStore

/-- A stored row has the value in a join column, or the column is missing and the value null. -/
def JoinValue (r : Registry) (s : MemoryStore) (v : Json) : Prop :=
  ∃ e column row, r.JoinColumn e column ∧ row ∈ (s.table e.name).rows ∧ v = Json.field row column

/-- Stored values that join are equal. -/
def JoinsEqual (r : Registry) (s : MemoryStore) : Prop :=
  ∀ v w, JoinValue r s v → JoinValue r s w → v.joinKey = w.joinKey → v.equal w = true

/-- The stored values of every column that a level of the plan sorts by are put in order. -/
def OrderedFor (r : Registry) (s : MemoryStore) (e : Entity) (plan : FetchPlan) : Prop :=
  ∀ e' plan', r.Reaches e plan e' plan' →
    SortKey.Preordered plan'.ordering (s.table e'.name).rows

end MemoryStore
end EntityGraph
