import Mathlib.Algebra.GroupWithZero.Nat
import EntityGraph.Proofs.ThroughLists

/-!
The queries that a read of a plan asks. Whatever a source answers, each node of the plan is asked
for once for all its parents together, and a relation through a middle entity once more for the
links. Below the root a query goes by keys that are there, different and not null, and takes no
page: without such keys nothing is asked.
-/

namespace EntityGraph

/-- Values that rows can be asked for by: none is null, and no two join the same rows. -/
structure KeysApart (keys : List Json) : Prop where
  present : ∀ v ∈ keys, v.isNull = false
  apart : keys.Pairwise fun v w => v.joinKey ≠ w.joinKey

theorem joinKey_of_mem_distinctKeysFrom {seen : List String} {values : List Json} {v : Json}
    (h : v ∈ distinctKeysFrom seen values) : ∃ key, v.joinKey = some key ∧ key ∉ seen := by
  induction values generalizing seen with
  | nil => cases h
  | cons first rest ih =>
      rw [distinctKeysFrom] at h
      split at h
      · exact ih h
      · rename_i key hkey
        split at h
        · exact ih h
        · rename_i fresh
          obtain rfl | h := List.mem_cons.mp h
          · exact ⟨key, hkey, by simpa using fresh⟩
          · obtain ⟨own, hown, unseen⟩ := ih h
            exact ⟨own, hown, fun member => unseen (List.mem_cons_of_mem _ member)⟩

private theorem pairwise_distinctKeysFrom (seen : List String) (values : List Json) :
    (distinctKeysFrom seen values).Pairwise fun v w => v.joinKey ≠ w.joinKey := by
  induction values generalizing seen with
  | nil => exact .nil
  | cons first rest ih =>
      rw [distinctKeysFrom]
      split
      · exact ih seen
      · rename_i key hkey
        split
        · exact ih seen
        · refine .cons ?_ (ih _)
          intro w hw same
          obtain ⟨own, hown, unseen⟩ := joinKey_of_mem_distinctKeysFrom hw
          rw [hkey, hown] at same
          exact unseen (Option.some.inj same ▸ List.mem_cons_self)

theorem keysApart_distinctKeys (values : List Json) : KeysApart (distinctKeys values) where
  present := by
    intro v hv
    obtain ⟨key, hkey, _⟩ := joinKey_of_mem_distinctKeysFrom hv
    cases v <;> first | rfl | cases hkey
  apart := pairwise_distinctKeysFrom [] values

/-- The query is for many parents at once: it goes by their keys, and takes no page. -/
structure LevelQuery.Batched (q : LevelQuery) : Prop where
  keyed : ∃ k, q.key = some k ∧ k.keys ≠ [] ∧ KeysApart k.keys
  unpaged : q.limit = none ∧ q.offset = none

/-- How many queries a relation node is asked for by: one for its rows, and through a middle
entity one more for the links. -/
def Relation.queries (rel : Relation) : Nat := if rel.cardinality.isThrough then 2 else 1

namespace Registry

mutual

/-- The relations of the plan's nodes, from the named entity on. A node whose relation the entity
does not have is passed over, with all below it. -/
def relationNodes (r : Registry) (entity : String) : FetchPlan → List Relation
  | ⟨_, relations, _⟩ => r.nodesOf entity relations

def nodesOf (r : Registry) (entity : String) : List (String × FetchPlan) → List Relation
  | [] => []
  | (name, child) :: rest =>
      (match (r.get? entity).bind fun e => e.relation? name with
        | some rel => rel :: r.relationNodes rel.target child
        | none => []) ++ r.nodesOf entity rest

end

/-- The queries that the nodes of the plan take. -/
def nodeQueries (r : Registry) (entity : String) (plan : FetchPlan) : Nat :=
  ((r.relationNodes entity plan).map Relation.queries).sum

end Registry

section Asking

variable {σ α β : Type}

/-- The source that also notes the queries it is asked, in their order. -/
def RowSource.noted (source : RowSource (StateM σ)) :
    RowSource (StateM (σ × List LevelQuery)) := fun q state =>
  ((source q state.1).1, ((source q state.1).2, state.2 ++ [q]))

/-- The second action does what the first does, and notes queries of the given kind. -/
def Asks (R : List LevelQuery → Prop) (m : ExceptT RequestError (StateM σ) α)
    (noted : ExceptT RequestError (StateM (σ × List LevelQuery)) α) : Prop :=
  ∀ s before, ∃ asked, noted (s, before) = ((m s).1, ((m s).2, before ++ asked)) ∧ R asked

namespace Asks

variable {R R' T : List LevelQuery → Prop} {m : ExceptT RequestError (StateM σ) α}
  {noted : ExceptT RequestError (StateM (σ × List LevelQuery)) α}
  {f : α → ExceptT RequestError (StateM σ) β}
  {fNoted : α → ExceptT RequestError (StateM (σ × List LevelQuery)) β}

theorem mono (h : Asks R m noted) (weaker : ∀ asked, R asked → T asked) : Asks T m noted := by
  intro s before
  obtain ⟨asked, ran, kind⟩ := h s before
  exact ⟨asked, ran, weaker asked kind⟩

theorem ofExcept (result : Except RequestError α) :
    Asks (· = []) (ExceptT.mk (pure result) : ExceptT RequestError (StateM σ) α)
      (ExceptT.mk (pure result)) := by
  intro s before
  exact ⟨[], by rw [List.append_nil]; rfl, rfl⟩

theorem pure (v : α) : Asks (· = []) (Pure.pure v : ExceptT RequestError (StateM σ) α)
    (Pure.pure v) := ofExcept (.ok v)

theorem source (source : RowSource (StateM σ)) (q : LevelQuery) :
    Asks (· = [q]) (source q) (source.noted q) := fun _ _ => ⟨[q], rfl, rfl⟩

theorem bind_apply {τ : Type} (first : ExceptT RequestError (StateM τ) α)
    (next : α → ExceptT RequestError (StateM τ) β) (s : τ) :
    (first >>= next) s = ExceptT.bindCont next (first s).1 (first s).2 := rfl

/-- What two actions in turn ask. The second may not be reached. -/
theorem bind (first : Asks R m noted) (second : ∀ v, Asks R' (f v) (fNoted v))
    (stopped : ∀ asked, R asked → T asked)
    (both : ∀ asked more, R asked → R' more → T (asked ++ more)) :
    Asks T (m >>= f) (noted >>= fNoted) := by
  intro s before
  obtain ⟨asked, ran, kind⟩ := first s before
  rw [bind_apply, bind_apply, ran]
  cases (m s).1 with
  | error reason => exact ⟨asked, rfl, stopped asked kind⟩
  | ok v =>
      obtain ⟨more, ran', kind'⟩ := second v (m s).2 (before ++ asked)
      refine ⟨asked ++ more, ?_, both asked more kind kind'⟩
      rw [← List.append_assoc]
      exact ran'

end Asks

/-- At most so many queries, each for many parents at once. -/
def Below (n : Nat) (asked : List LevelQuery) : Prop := asked.length ≤ n ∧ ∀ q ∈ asked, q.Batched

theorem below_nil (n : Nat) : Below n [] := ⟨Nat.zero_le n, nofun⟩

theorem Below.append {n k : Nat} {asked more : List LevelQuery} (h : Below n asked)
    (h' : Below k more) : Below (n + k) (asked ++ more) := by
  refine ⟨?_, List.forall_mem_append.mpr ⟨h.2, h'.2⟩⟩
  rw [List.length_append]
  exact Nat.add_le_add h.1 h'.1

theorem Below.mono {n k : Nat} {asked : List LevelQuery} (h : Below n asked) (atMost : n ≤ k) :
    Below k asked := ⟨h.1.trans atMost, h.2⟩

theorem Asks.bind_below {n k : Nat} {m : ExceptT RequestError (StateM σ) α}
    {noted : ExceptT RequestError (StateM (σ × List LevelQuery)) α}
    {f : α → ExceptT RequestError (StateM σ) β}
    {fNoted : α → ExceptT RequestError (StateM (σ × List LevelQuery)) β}
    (first : Asks (Below n) m noted) (second : ∀ v, Asks (Below k) (f v) (fNoted v)) :
    Asks (Below (n + k)) (m >>= f) (noted >>= fNoted) :=
  first.bind second (fun _ h => h.mono (Nat.le_add_right n k)) fun _ _ h h' => h.append h'

/-- What a level asks: its own query by the given key, unless that has no values, and the queries
below. -/
inductive LevelAsks (e : Entity) (key : Option KeyFilter) (root : Bool) (n : Nat) :
    List LevelQuery → Prop
  | nothing : LevelAsks e key root n []
  | query {q : LevelQuery} {below : List LevelQuery} :
      q.entity = e → q.key = key → key.any (·.keys.isEmpty) = false →
      (root = false → q.limit = none ∧ q.offset = none) → Below n below →
      LevelAsks e key root n (q :: below)

theorem LevelAsks.below {e : Entity} {column : String} {keys : List Json} {n : Nat}
    {asked : List LevelQuery} (h : LevelAsks e (some ⟨column, keys⟩) false n asked)
    (apart : KeysApart keys) : Below (1 + n) asked := by
  cases h with
  | nothing => exact below_nil _
  | @query q below _ keyed asks unpaged rest =>
      have present : keys ≠ [] := by simpa using asks
      have own : Below 1 [q] :=
        ⟨Nat.le_refl 1, List.forall_mem_singleton.mpr ⟨⟨_, keyed, present, apart⟩, unpaged rfl⟩⟩
      exact own.append rest

variable (source : RowSource (StateM σ)) (r : Registry)

theorem fetchLinks_asks (x : Expansion) (via : Relation) (middle : Entity) (parents : List Row) :
    Asks (Below 1) (fetchLinks source x via middle parents)
      (fetchLinks source.noted x via middle parents) := by
  have apart := keysApart_distinctKeys (parents.map fun row => Json.field row x.ownerColumn)
  unfold fetchLinks
  dsimp only
  split
  · exact (Asks.pure _).mono fun _ none => none ▸ below_nil 1
  · rename_i present
    refine ((Asks.source source _).mono ?_).bind_below (k := 0) fun rows =>
      (Asks.pure _).mono fun _ none => none ▸ below_nil 0
    rintro _ rfl
    exact ⟨Nat.le_refl 1, List.forall_mem_singleton.mpr
      ⟨⟨_, rfl, by simpa using present, apart⟩, rfl, rfl⟩⟩

variable {r}

theorem isThrough_of_via {e : Entity} {name : String} {child : FetchPlan} {x : Expansion}
    {via : Relation} (h : r.expansion? e name child = some x) (through : x.via = some via) :
    x.relation.cardinality.isThrough = true := by
  unfold Registry.expansion? at h
  obtain ⟨relation, -, h⟩ := Option.bind_eq_some_iff.mp h
  obtain ⟨target, -, h⟩ := Option.bind_eq_some_iff.mp h
  split at h
  · rename_i link kind
    obtain ⟨middle, -, made⟩ := Option.bind_eq_some_iff.mp h
    cases made
    simp [kind, Cardinality.isThrough]
  · cases h
    cases through

namespace Registry

/-- The queries of the plans below a level. -/
def queriesBelow (r : Registry) (entity : String) (relations : List (String × FetchPlan)) : Nat :=
  ((r.nodesOf entity relations).map Relation.queries).sum

theorem queriesBelow_le_cons (entity : String) (node : String × FetchPlan)
    (rest : List (String × FetchPlan)) :
    r.queriesBelow entity rest ≤ r.queriesBelow entity (node :: rest) := by
  simp [queriesBelow, nodesOf]

theorem queriesBelow_cons {entity name : String} {e : Entity} {rel : Relation}
    (registered : r.get? entity = some e) (related : e.relation? name = some rel)
    (child : FetchPlan) (rest : List (String × FetchPlan)) :
    r.queriesBelow entity ((name, child) :: rest) =
      rel.queries + r.nodeQueries rel.target child + r.queriesBelow entity rest := by
  simp [queriesBelow, nodesOf, nodeQueries, registered, related, Nat.add_assoc]

end Registry

mutual

/-- A level and the levels below it, whatever the rows are. -/
theorem fetchLevel_asks {entity : String} {e : Entity} (registered : r.get? entity = some e)
    (key : Option KeyFilter) (root : Bool) : ∀ plan : FetchPlan,
    Asks (LevelAsks e key root (r.nodeQueries entity plan)) (fetchLevel source r e key root plan)
      (fetchLevel source.noted r e key root plan)
  | ⟨shownAs, relations, modifiers⟩ => by
      unfold fetchLevel
      dsimp only
      split
      · exact (Asks.pure _).mono fun _ none => none ▸ .nothing
      · rename_i keyed
        have own : ∀ q : LevelQuery, q.entity = e → q.key = key →
            (root = false → q.limit = none ∧ q.offset = none) → ∀ below,
            Below (r.queriesBelow entity relations) below →
            LevelAsks e key root (r.queriesBelow entity relations) (q :: below) :=
          fun q of goes unpaged below many =>
            .query of goes (Bool.eq_false_iff.mpr keyed) unpaged many
        refine (Asks.source source _).bind (fun rows =>
          (attachAll_asks registered rows relations).bind (T := Below _)
            (fun attached => Asks.pure _) (fun _ h => h) ?_) ?_ ?_
        · rintro asked _ many rfl
          rwa [List.append_nil]
        · rintro _ rfl
          exact own _ rfl rfl (by rintro rfl; exact ⟨rfl, rfl⟩) [] (below_nil _)
        · rintro _ below rfl many
          exact own _ rfl rfl (by rintro rfl; exact ⟨rfl, rfl⟩) below many

theorem attachAll_asks {entity : String} {e : Entity} (registered : r.get? entity = some e)
    (rows : List Row) : ∀ relations : List (String × FetchPlan),
    Asks (Below (r.queriesBelow entity relations)) (attachAll source r e rows relations)
      (attachAll source.noted r e rows relations)
  | [] => by
      unfold attachAll
      exact (Asks.pure _).mono fun _ none => none ▸ below_nil _
  | (name, child) :: rest => by
      have passed := fun rows => (attachAll_asks registered rows rest).mono fun _ h =>
        h.mono (r.queriesBelow_le_cons entity (name, child) rest)
      unfold attachAll
      split
      · exact passed rows
      · rename_i x expanded
        obtain ⟨related, targets, -⟩ := Registry.expansion?_eq_some expanded
        have child_asks := fun values => (fetchLevel_asks targets
          (some ⟨x.relation.join.far, distinctKeys values⟩) false child).mono
            fun _ h => h.below (keysApart_distinctKeys values)
        rw [Registry.queriesBelow_cons registered related] at passed ⊢
        dsimp only
        split
        · refine ((child_asks _).bind_below fun children =>
            attachAll_asks registered _ rest).mono fun _ h => h.mono ?_
          unfold Relation.queries
          split <;> omega
        · rename_i via through
          split
          · exact passed rows
          · have double : x.relation.queries = 2 := by
              simp [Relation.queries, isThrough_of_via expanded through]
            refine ((fetchLinks_asks source x via _ rows).bind_below fun links =>
              (child_asks _).bind_below fun children =>
                attachAll_asks registered _ rest).mono fun _ h => h.mono ?_
            omega

end

/-- What a read asks, whatever the source answers: at most one query for the root, one for each
relation node of the plan and one more for each of those through a middle entity. The root's own
query comes first, by the keys of the scope; all others are for many parents at once. -/
theorem fetchGraph_asks (entity : String) (scope : KeyScope) (plan : FetchPlan) (s : σ) :
    ∃ asked, fetchGraph source.noted r entity scope plan (s, []) =
        ((fetchGraph source r entity scope plan s).1,
          ((fetchGraph source r entity scope plan s).2, asked)) ∧
      asked.length ≤ 1 + r.nodeQueries entity plan ∧
      (asked = [] ∨ ∃ q below, asked = q :: below ∧ r.get? entity = some q.entity ∧
        scope.filter? q.entity = .ok q.key ∧ ∀ sub ∈ below, sub.Batched) := by
  cases registered : r.get? entity with
  | none =>
      refine ⟨[], ?_, Nat.zero_le _, .inl rfl⟩
      simp only [fetchGraph, registered]
      rfl
  | some e =>
      cases filtered : scope.filter? e with
      | error reason =>
          refine ⟨[], ?_, Nat.zero_le _, .inl rfl⟩
          simp only [fetchGraph, registered, filtered]
          rfl
      | ok key =>
          have level := (fetchLevel_asks source registered key true plan).bind
            (T := LevelAsks e key true (r.nodeQueries entity plan))
            (fun level => Asks.pure (level.rows.map fun row =>
              Json.object (stripColumns level.strip row))) (fun _ h => h)
            (by rintro asked _ h rfl; rwa [List.append_nil])
          obtain ⟨asked, ran, kind⟩ := level s []
          refine ⟨asked, ?_, ?_⟩
          · simp only [fetchGraph, registered, filtered]
            exact ran
          · cases kind with
            | nothing => exact ⟨Nat.zero_le _, .inl rfl⟩
            | @query q below of goes _ _ rest =>
                subst of goes
                refine ⟨?_, .inr ⟨q, below, rfl, rfl, filtered, rest.2⟩⟩
                rw [List.length_cons, Nat.add_comm]
                exact Nat.add_le_add_left rest.1 1

end Asking

end EntityGraph
