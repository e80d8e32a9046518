import EntityGraph.Proofs.IssuedStatements
import EntityGraph.Proofs.KeyBatches
import EntityGraph.Proofs.Placeholders
import EntityGraph.Proofs.RowByRow

/-!
What the statements of a store bind. A query binds the keys of its part of the key list and then
the operands of its predicates; a write binds the values of the columns that it sets, and the key
last. So it is for every statement of a nested read, whatever the plan.
-/

namespace EntityGraph

open Sql

/-- The values that a predicate compares with: the elements of a list, no value for a test on null,
else the operand. -/
def Predicate.operands (p : Predicate) : List Json :=
  match p.op with
  | .isIn | .notIn => p.value.asList
  | .isNull => []
  | .eq | .notEq | .gt | .gte | .lt | .lte | .like | .likeNoCase => [p.value]

namespace LevelQuery

/-- The operands of the predicates on declared columns, in the order of the predicates. -/
def filterSlots (q : LevelQuery) : List (String × Json) :=
  (q.predicates.filter fun p => q.entity.hasScalar p.field).flatMap fun p =>
    p.operands.map (p.field, ·)

/-- What is bound where the query is asked for some of its keys. -/
def slots (q : LevelQuery) (keys : List Json) : List (String × Json) :=
  (q.key.toList.flatMap fun k => keys.map (k.column, ·)) ++ q.filterSlots

end LevelQuery

theorem Sql.Condition.slots_ofPredicate? (p : Predicate) :
    (Condition.ofPredicate? p).toList.flatMap Condition.slots = p.operands.map (p.field, ·) := by
  obtain ⟨field, op, value⟩ := p
  cases op with
  | isIn | notIn =>
      cases listed : value.asList <;>
        simp [Condition.ofPredicate?, Predicate.operands, Condition.slots, Condition.column?,
          Condition.operands, listed]
  | isNull =>
      dsimp only [Condition.ofPredicate?]
      split <;> rfl
  | eq | notEq | gt | gte | lt | lte | like | likeNoCase => rfl

namespace SqlStore

theorem slots_conditionsOf (q : LevelQuery) :
    (conditionsOf q).flatMap Condition.slots = q.filterSlots := by
  unfold conditionsOf LevelQuery.filterSlots
  induction q.predicates.filter fun p => q.entity.hasScalar p.field with
  | nil => rfl
  | cons p rest ih =>
      rw [List.flatMap_cons, ← ih, ← Condition.slots_ofPredicate?, List.filterMap_cons]
      cases Condition.ofPredicate? p with
      | none => rfl
      | some c => simp

theorem slots_selectOf (q : LevelQuery) (key : Option KeyFilter) (columns : List String)
    (paged : Bool) : Statement.slots (.select (selectOf q key columns paged)) =
      (key.toList.flatMap fun k => k.keys.map (k.column, ·)) ++ q.filterSlots := by
  have keyed : (keyCondition key).flatMap Condition.slots =
      key.toList.flatMap fun k => k.keys.map (k.column, ·) := by
    cases key with
    | none => rfl
    | some k => simp [keyCondition, Condition.slots, Condition.column?, Condition.operands]
  change (keyCondition key ++ conditionsOf q).flatMap Condition.slots = _
  rw [List.flatMap_append, keyed, slots_conditionsOf]

variable (st : SqlStore)

/-- The keys of each statement of a query. -/
def keyParts (q : LevelQuery) : List (List Json) :=
  match q.key with
  | none => [[]]
  | some k => batches (max st.batchSize 1) k.keys.length k.keys

theorem batches_of_le {α : Type} {size : Nat} {xs : List α} (present : xs ≠ [])
    (few : xs.length ≤ size) : batches size xs.length xs = [xs] := by
  cases xs with
  | nil => exact absurd rfl present
  | cons x rest =>
      rw [List.length_cons, batches, List.take_of_length_le few, List.drop_of_length_le few]
      · cases rest <;> rfl
      · exact present

/-- The parts make up the list of keys. -/
theorem flatten_keyParts (q : LevelQuery) :
    (st.keyParts q).flatten = q.key.toList.flatMap (·.keys) := by
  unfold keyParts
  cases q.key with
  | none => rfl
  | some k =>
      rw [Option.toList_some, List.flatMap_singleton]
      exact flatten_batches (by omega) le_rfl

theorem exists_mem_of_forall₂ {α β : Type} {R : α → β → Prop} {as : List α} {bs : List β}
    (h : List.Forall₂ R as bs) : ∀ a ∈ as, ∃ b ∈ bs, R a b := by
  induction h with
  | nil => exact nofun
  | cons first _ ih =>
      refine List.forall_mem_cons.mpr ⟨⟨_, List.mem_cons_self, first⟩, fun a ha => ?_⟩
      obtain ⟨b, hb, related⟩ := ih a ha
      exact ⟨b, List.mem_cons_of_mem _ hb, related⟩

/-- A query has one statement for each part of its keys, and binds them before the operands. -/
theorem plannedFetch_linesUp (q : LevelQuery) :
    List.Forall₂ (fun s keys => s.LinesUp (q.slots keys)) (st.plannedFetch q) (st.keyParts q) := by
  have asked (key : Option KeyFilter) (columns : List String) (paged : Bool) :
      Statement.LinesUp (.select (selectOf q key columns paged))
        ((key.toList.flatMap fun k => k.keys.map (k.column, ·)) ++ q.filterSlots) := by
    rw [← slots_selectOf q key columns paged]
    exact Statement.linesUp _
  unfold plannedFetch keyParts LevelQuery.slots
  cases q.key with
  | none => exact .cons (asked none q.columns true) .nil
  | some k =>
      dsimp only
      split
      · rename_i nothing
        rw [List.isEmpty_iff.mp nothing]
        exact .nil
      · rename_i present
        split
        · rw [List.forall₂_map_left_iff, List.forall₂_same]
          exact fun keys _ => asked (some ⟨k.column, keys⟩) (orderedColumns q) false
        · rename_i few
          rw [batches_of_le (by simpa using present) (Nat.le_of_not_lt few)]
          exact .cons (asked (some k) q.columns true) .nil

/-- The queries that a plan for an entity leads to: one for a level of the plan with the predicates
of that level, or one without predicates for the rows between two levels. -/
inductive Leads (r : Registry) (e : Entity) (plan : FetchPlan) (q : LevelQuery) : Prop
  | level {p : FetchPlan} :
      r.Reaches e plan q.entity p → q.predicates = p.predicates → Leads r e plan q
  | links {owner : Entity} {p child : FetchPlan} {name : String} {x : Expansion} {via : Relation} :
      r.Reaches e plan owner p → (name, child) ∈ p.relations →
      r.expansion? owner name child = some x → x.via = some via →
      r.get? via.target = some q.entity → q.key.map (·.column) = some via.join.far →
      q.predicates = [] → Leads r e plan q

section Plans

variable {st} {r : Registry} {e : Entity}

theorem Leads.below {plan child : FetchPlan} {name : String} {x : Expansion} {q : LevelQuery}
    (asked : (name, child) ∈ plan.relations) (expanded : r.expansion? e name child = some x)
    (h : Leads r x.target child q) : Leads r e plan q := by
  cases h with
  | level reached same => exact .level (.expanded asked expanded reached) same
  | links reached within link via middle column none =>
      exact .links (.expanded asked expanded reached) within link via middle column none

/-- The statement is one of those planned for a query that the plan leads to. -/
def PlannedFor (st : SqlStore) (e : Entity) (plan : FetchPlan) (s : Statement) : Prop :=
  ∃ q, Leads st.registry e plan q ∧ s ∈ st.plannedFetch q

theorem PlannedFor.below {plan child : FetchPlan} {name : String} {x : Expansion} {s : Statement}
    (asked : (name, child) ∈ plan.relations)
    (expanded : st.registry.expansion? e name child = some x)
    (h : st.PlannedFor x.target child s) : st.PlannedFor e plan s := by
  obtain ⟨q, leads, planned⟩ := h
  exact ⟨q, leads.below asked expanded, planned⟩

theorem Issues.mono {α : Type} {P Q : Statement → Prop} {m : SqlAction α} (h : Issues P m)
    (weaker : ∀ s, P s → Q s) : Issues Q m :=
  fun session => ⟨(h session).1, fun s hs => weaker s ((h session).2 s hs)⟩

theorem source_plannedFor {plan : FetchPlan} {q : LevelQuery} (h : Leads st.registry e plan q) :
    Issues (st.PlannedFor e plan) (st.source q) :=
  (st.source_follows q).issues fun _ planned => ⟨q, h, planned⟩

theorem fetchLinks_plannedFor {plan child : FetchPlan} {name : String} {x : Expansion}
    (asked : (name, child) ∈ plan.relations)
    (expanded : st.registry.expansion? e name child = some x) {via : Relation}
    (hvia : x.via = some via) {middle : Entity}
    (hmiddle : st.registry.get? via.target = some middle) (parents : List Row) :
    Issues (st.PlannedFor e plan) (fetchLinks st.source x via middle parents) := by
  unfold fetchLinks
  dsimp only
  split
  · exact issues_pure _ _
  · apply (source_plannedFor _).bind
    · exact fun rows => issues_pure _ _
    · exact .links .root asked expanded hvia hmiddle rfl rfl

mutual

/-- A level issues what its plan leads to. -/
theorem fetchLevel_plannedFor (e : Entity) (key : Option KeyFilter) (root : Bool) :
    ∀ plan : FetchPlan,
      Issues (st.PlannedFor e plan) (fetchLevel st.source st.registry e key root plan)
  | ⟨shownAs, relations, modifiers⟩ => by
      unfold fetchLevel
      dsimp only
      split
      · exact issues_pure _ _
      · apply (source_plannedFor (.level .root rfl)).bind
        intro rows
        apply Issues.bind
        · exact attachAll_plannedFor e ⟨shownAs, relations, modifiers⟩ rows relations fun _ h => h
        · exact fun attached => issues_pure _ _

theorem attachAll_plannedFor (e : Entity) (plan : FetchPlan) (rows : List Row) :
    ∀ relations : List (String × FetchPlan), relations ⊆ plan.relations →
      Issues (st.PlannedFor e plan) (attachAll st.source st.registry e rows relations)
  | [], _ => issues_pure _ rows
  | (name, child) :: rest, among => by
      obtain ⟨asked, others⟩ := List.cons_subset.mp among
      unfold attachAll
      split
      · exact attachAll_plannedFor e plan rows rest others
      · rename_i x expanded
        have below (key : Option KeyFilter) : Issues (st.PlannedFor e plan)
            (fetchLevel st.source st.registry x.target key false child) :=
          (fetchLevel_plannedFor x.target key false child).mono fun _ => .below asked expanded
        dsimp only
        split
        · exact (below _).bind fun children => attachAll_plannedFor e plan _ rest others
        · rename_i via hvia
          split
          · exact attachAll_plannedFor e plan rows rest others
          · rename_i middle hmiddle
            apply (fetchLinks_plannedFor asked expanded hvia hmiddle rows).bind
            intro links
            exact (below _).bind fun children => attachAll_plannedFor e plan _ rest others

end

/-- The statement is for part of the keys of a query that the plan leads to, and binds these and the
operands of the query. -/
def LinedUpFor (st : SqlStore) (entity : String) (plan : FetchPlan) (s : Statement) : Prop :=
  ∃ e q, st.registry.get? entity = some e ∧ Leads st.registry e plan q ∧
    ∃ keys ∈ st.keyParts q, s.LinesUp (q.slots keys)

theorem select_plannedFor (entity : String) (scope : KeyScope) (plan : FetchPlan) :
    Issues (fun s => ∃ e, st.registry.get? entity = some e ∧ st.PlannedFor e plan s)
      (st.select entity scope plan) := by
  unfold select fetchGraph
  split
  · exact issues_throw _ _
  · rename_i e registered
    cases scope.filter? e with
    | error reason => exact issues_throw _ reason
    | ok key =>
        apply ((fetchLevel_plannedFor e key true plan).mono _).bind
        · exact fun level => issues_pure _ _
        · exact fun s planned => ⟨e, registered, planned⟩

theorem select_linedUpFor (entity : String) (scope : KeyScope) (plan : FetchPlan) :
    Issues (st.LinedUpFor entity plan) (st.select entity scope plan) := by
  apply (select_plannedFor entity scope plan).mono
  rintro s ⟨e, registered, q, leads, planned⟩
  obtain ⟨keys, part, up⟩ := exists_mem_of_forall₂ (st.plannedFetch_linesUp q) s planned
  exact ⟨e, q, registered, leads, keys, part, up⟩

end Plans

/-- The placeholders and the bound values of every statement line up. A query for one level is
split over statements for the parts of its keys, and each of them binds these and then the operands
of its predicates; the statements of a read are those of the queries that its plan leads to. An
insert and a patch bind the values of declared columns in the order of the row, a patch the key
behind them, and a delete the key. -/
theorem statements_line_up :
    (∀ q, Follows (st.plannedFetch q) (st.source q) ∧
      (st.keyParts q).flatten = q.key.toList.flatMap (·.keys) ∧
      List.Forall₂ (fun s keys => s.LinesUp (q.slots keys)) (st.plannedFetch q) (st.keyParts q)) ∧
    (∀ entity scope plan, Issues (st.LinedUpFor entity plan) (st.select entity scope plan)) ∧
    (∀ entity row, Issues
      (fun s => ∃ e, st.registry.get? entity = some e ∧
        s.LinesUp (row.filter fun v => e.hasScalar v.1))
      (st.insert entity row)) ∧
    (∀ entity key row, Issues
      (fun s => ∃ e primary, st.registry.get? entity = some e ∧ e.primaryField = some primary ∧
        s.LinesUp ((row.filter fun v => e.hasScalar v.1) ++ [(primary, key)]))
      (st.patch entity key row)) ∧
    (∀ entity key, Issues
      (fun s => ∃ e primary, st.registry.get? entity = some e ∧ e.primaryField = some primary ∧
        s.LinesUp [(primary, key)])
      (st.delete entity key)) ∧
    (∀ entities, Issues (fun s => s.LinesUp []) (createTables entities)) := by
  refine ⟨fun q => ⟨st.source_follows q, st.flatten_keyParts q, st.plannedFetch_linesUp q⟩,
    select_linedUpFor, ?_, ?_, ?_, ?_⟩
  · intro entity row
    apply (st.insert_follows entity row).issues
    refine forall_mem_entity fun e registered => ?_
    exact List.forall_mem_singleton.mpr ⟨e, registered, Statement.linesUp _⟩
  · intro entity key row
    apply (st.patch_follows entity key row).issues
    refine forall_mem_entity fun e registered => forall_mem_primary fun primary hprimary => ?_
    exact List.forall_mem_singleton.mpr ⟨e, primary, registered, hprimary, Statement.linesUp _⟩
  · intro entity key
    apply (st.delete_follows entity key).issues
    refine forall_mem_entity fun e registered => forall_mem_primary fun primary hprimary => ?_
    exact List.forall_mem_singleton.mpr ⟨e, primary, registered, hprimary, Statement.linesUp _⟩
  · intro entities
    apply (st.createTables_follows entities).issues
    rw [List.forall_mem_flatMap]
    intro e _
    dsimp only [planned]
    split
    · exact List.forall_mem_singleton.mpr (Statement.linesUp _)
    · exact nofun

end SqlStore
end EntityGraph
