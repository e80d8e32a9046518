import EntityGraph.Proofs.BoundValues
import EntityGraph.Proofs.LevelQueries

/-!
How many values the statements of a read bind. A statement has no more keys than the store says,
but the operands of the filters come on top of these, however many they are. So a read keeps to the
limit of the database exactly if each of its queries leaves room for them, and is refused otherwise.
-/

namespace EntityGraph

open Sql

section Related

variable {m n : Type → Type} [Monad m] [Monad n]

/-- Equal results are related, and so are related actions with related actions after them. -/
structure Composes
    (R : ∀ α : Type, ExceptT RequestError m α → ExceptT RequestError n α → Prop) : Prop where
  result {α : Type} (r : Except RequestError α) :
    R α (ExceptT.mk (pure r)) (ExceptT.mk (pure r))
  bind {α β : Type} {x : ExceptT RequestError m α} {y : ExceptT RequestError n α}
    {f : α → ExceptT RequestError m β} {g : α → ExceptT RequestError n β} :
    R α x y → (∀ v, R β (f v) (g v)) → R β (x >>= f) (y >>= g)

variable {R : ∀ α : Type, ExceptT RequestError m α → ExceptT RequestError n α → Prop}
  (source : RowSource m) (source' : RowSource n) {r : Registry}

theorem Composes.pure {α : Type} (h : Composes R) (v : α) : R α (Pure.pure v) (Pure.pure v) :=
  h.result (.ok v)

theorem fetchLinks_related (h : Composes R) (related : ∀ q, R _ (source q) (source' q))
    (x : Expansion) (via : Relation) (middle : Entity) (parents : List Row) :
    R _ (fetchLinks source x via middle parents) (fetchLinks source' x via middle parents) := by
  unfold fetchLinks
  dsimp only
  split
  · exact h.pure _
  · exact h.bind (related _) fun rows => h.pure _

mutual

theorem fetchLevel_related (h : Composes R) (related : ∀ q, R _ (source q) (source' q))
    (e : Entity) (key : Option KeyFilter) (root : Bool) : ∀ plan : FetchPlan,
    R _ (fetchLevel source r e key root plan) (fetchLevel source' r e key root plan)
  | ⟨shownAs, relations, modifiers⟩ => by
      unfold fetchLevel
      dsimp only
      split
      · exact h.pure _
      · refine h.bind (related _) fun rows => ?_
        exact h.bind (attachAll_related h related e rows relations) fun attached => h.pure _

theorem attachAll_related (h : Composes R) (related : ∀ q, R _ (source q) (source' q))
    (e : Entity) (rows : List Row) : ∀ relations : List (String × FetchPlan),
    R _ (attachAll source r e rows relations) (attachAll source' r e rows relations)
  | [] => by
      unfold attachAll
      exact h.pure _
  | (name, child) :: rest => by
      unfold attachAll
      split
      · exact attachAll_related h related e rows rest
      · rename_i x _
        have children key := fetchLevel_related h related x.target key false child
        dsimp only
        split
        · exact h.bind (children _) fun level => attachAll_related h related e _ rest
        · split
          · exact attachAll_related h related e rows rest
          · refine h.bind (fetchLinks_related source source' h related x _ _ rows) fun links => ?_
            exact h.bind (children _) fun level => attachAll_related h related e _ rest

end

/-- Reads of related sources are related: a read only asks its source, and goes on with what that
answers. -/
theorem fetchGraph_related (h : Composes R) (related : ∀ q, R _ (source q) (source' q))
    (entity : String) (scope : KeyScope) (plan : FetchPlan) :
    R _ (fetchGraph source r entity scope plan) (fetchGraph source' r entity scope plan) := by
  unfold fetchGraph
  split
  · exact h.result (.error _)
  · rename_i e _
    refine h.bind (h.result (scope.filter? e)) fun key => ?_
    exact h.bind (fetchLevel_related source source' h related e key true plan) fun level => h.pure _

end Related

/-- The database takes as many values as the statement binds. -/
def Sql.Statement.WithinLimit (s : Statement) : Prop := s.bound.length ≤ boundLimit

/-- How many values predicates compare with, of those on columns that the entity declares. -/
def Entity.operandCount (e : Entity) (predicates : List Predicate) : Nat :=
  ((predicates.filter fun p => e.hasScalar p.field).map fun p => p.operands.length).sum

/-- The most values that a statement about the entity binds, where one has at most so many of the
keys. Nothing is asked without keys. -/
def Entity.mostBound (e : Entity) (size : Nat) (key : Option KeyFilter)
    (predicates : List Predicate) : Nat :=
  match key with
  | none => e.operandCount predicates
  | some k => if k.keys.isEmpty then 0 else min k.keys.length size + e.operandCount predicates

theorem Entity.mostBound_le (e : Entity) (size : Nat) (key : Option KeyFilter)
    (predicates : List Predicate) :
    e.mostBound size key predicates ≤ size + e.operandCount predicates := by
  unfold mostBound
  split
  · exact Nat.le_add_left _ _
  · split
    · exact Nat.zero_le _
    · exact Nat.add_le_add_right (Nat.min_le_right _ _) _

namespace LevelQuery

def mostBound (size : Nat) (q : LevelQuery) : Nat := q.entity.mostBound size q.key q.predicates

/-- The query leaves room for the operands of its predicates. -/
def Fits (size : Nat) (q : LevelQuery) : Prop := q.mostBound size ≤ boundLimit

theorem length_filterSlots (q : LevelQuery) :
    q.filterSlots.length = q.entity.operandCount q.predicates := by
  simp [filterSlots, Entity.operandCount, List.length_flatMap]

end LevelQuery

namespace SqlStore

variable (st : SqlStore)

theorem length_bound_selectOf (q : LevelQuery) (key : Option KeyFilter) (columns : List String)
    (paged : Bool) : (Statement.bound (.select (selectOf q key columns paged))).length =
      (key.toList.flatMap (·.keys)).length + q.entity.operandCount q.predicates := by
  rw [(Statement.linesUp _).bound, List.length_map, slots_selectOf, List.length_append,
    LevelQuery.length_filterSlots]
  cases key <;> simp

/-- Of the statements of a query the first binds the most. -/
theorem plannedFetch_cases (q : LevelQuery) :
    (st.plannedFetch q = [] ∧ q.mostBound (max st.batchSize 1) = 0) ∨
    ∃ first rest, st.plannedFetch q = first :: rest ∧
      first.bound.length = q.mostBound (max st.batchSize 1) ∧
      ∀ s ∈ rest, s.bound.length ≤ q.mostBound (max st.batchSize 1) := by
  generalize hsize : max st.batchSize 1 = size
  unfold plannedFetch LevelQuery.mostBound Entity.mostBound
  rw [hsize]
  cases hkey : q.key with
  | none => exact .inr ⟨_, [], rfl, by simp [length_bound_selectOf], List.forall_mem_nil _⟩
  | some k =>
      dsimp only
      split
      · exact .inl ⟨rfl, rfl⟩
      · rename_i present
        split
        · rename_i long
          cases keys : k.keys with
          | nil => simp [keys] at present
          | cons v rest =>
              rw [keys] at long
              rw [Nat.min_eq_right long.le, List.length_cons, batches, List.map_cons]
              · refine .inr ⟨_, _, rfl, ?_, ?_⟩
                · rw [length_bound_selectOf]
                  simpa using long.le
                · rw [List.forall_mem_map]
                  intro part among
                  rw [length_bound_selectOf]
                  simpa using length_le_of_mem_batches among
              · exact List.cons_ne_nil v rest
        · rename_i few
          rw [Nat.min_eq_left (Nat.le_of_not_lt few)]
          exact .inr ⟨_, [], rfl, by simp [length_bound_selectOf], List.forall_mem_nil _⟩

theorem length_bound_le {q : LevelQuery} {s : Statement} (planned : s ∈ st.plannedFetch q) :
    s.bound.length ≤ q.mostBound (max st.batchSize 1) := by
  obtain ⟨nothing, -⟩ | ⟨first, rest, all, most, others⟩ := st.plannedFetch_cases q
  · rw [nothing] at planned
    cases planned
  · rw [all] at planned
    obtain rfl | later := List.mem_cons.mp planned
    · exact most.le
    · exact others s later

section Opening

variable {α β : Type} {m : SqlAction α} {f : α → SqlAction β} {s : Statement}

/-- The action issues the statement before any other. -/
def Opens (s : Statement) (m : SqlAction α) : Prop :=
  ∀ session, session.issued ++ [s] <+: (m session).2.issued

theorem opens_issue (s : Statement) : Opens s (issue s) := by
  intro session
  dsimp only [issue]
  cases s.run session.database <;> exact List.prefix_rfl

theorem Opens.bind (h : Opens s m)
    (next : ∀ v session, session.issued <+: (f v session).2.issued) : Opens s (m >>= f) := by
  intro session
  rw [run_bind]
  cases (m session).1 with
  | error reason => exact h session
  | ok v => exact (h session).trans (next v (m session).2)

theorem Opens.mem_of_append (h : Opens s m) {session : SqlSession} {done : List Statement}
    (added : (m session).2.issued = session.issued ++ done) : s ∈ done := by
  have first := h session
  rw [added, List.prefix_append_right_inj] at first
  exact first.subset List.mem_cons_self

theorem Issues.starts {P : Statement → Prop} (h : Issues P m) (session : SqlSession) :
    session.issued <+: (m session).2.issued := (h session).1

theorem Follows.starts {planned : List Statement} (h : Follows planned m) :
    ∀ session, session.issued <+: (m session).2.issued :=
  (h.issues fun _ _ => trivial : Issues (fun _ => True) m).starts

theorem selectRows_opens (q : LevelQuery) (key : Option KeyFilter) (columns : List String)
    (paged : Bool) :
    Opens (.select (selectOf q key columns paged)) (selectRows q key columns paged) :=
  (opens_issue _).bind fun _ => (follows_ofExcept _).starts

theorem source_opens {q : LevelQuery} {first : Statement} {rest : List Statement}
    (planned : st.plannedFetch q = first :: rest) : Opens first (st.source q) := by
  unfold plannedFetch at planned
  unfold source
  cases hkey : q.key with
  | none =>
      rw [hkey] at planned
      obtain ⟨rfl, -⟩ := List.cons.inj planned
      exact selectRows_opens _ _ _ _
  | some k =>
      rw [hkey] at planned
      dsimp only at planned ⊢
      split at planned
      · cases planned
      · rename_i present
        rw [if_neg present]
        split at planned
        · rename_i long
          rw [if_pos long]
          unfold fetchBatched
          obtain ⟨keys, parts, split, rfl, -⟩ := List.map_eq_cons_iff.mp planned
          rw [split]
          refine Opens.bind ?_ fun rows => (follows_pure _).starts
          exact (selectRows_opens _ _ _ _).bind fun rows =>
            ((selectBatches_follows _ _ _ parts).last fun more => follows_pure _).starts
        · rename_i few
          rw [if_neg few]
          obtain ⟨rfl, -⟩ := List.cons.inj planned
          exact selectRows_opens _ _ _ _

end Opening

section Refusing

variable {α β : Type} {m : SqlAction α} {f : α → SqlAction β}

/-- An action with a statement beyond the limit ends with the refusal of the database. -/
def Refuses (m : SqlAction α) : Prop :=
  ∀ session, ∃ done, (m session).2.issued = session.issued ++ done ∧
    ((∃ s ∈ done, ¬ s.WithinLimit) → (m session).1 = .error .database)

theorem refuses_ofExcept (result : Except RequestError α) : Refuses (ofExcept result) :=
  fun _ => ⟨[], (List.append_nil _).symm, nofun⟩

theorem refuses_issue (s : Statement) : Refuses (issue s) := by
  intro session
  by_cases within : s.WithinLimit
  · obtain ⟨done, added, some_of, -⟩ := follows_issue s session
    refine ⟨done, added, ?_⟩
    rintro ⟨t, ht, beyond⟩
    obtain rfl := List.mem_singleton.mp (some_of.subset ht)
    exact absurd within beyond
  · have refused : s.run session.database = .error .database := if_pos (Nat.lt_of_not_le within)
    refine ⟨[s], ?_, fun _ => ?_⟩ <;> simp only [issue, refused]

theorem Refuses.bind (h : Refuses m) (next : ∀ v, Refuses (f v)) : Refuses (m >>= f) := by
  intro session
  obtain ⟨done, added, refused⟩ := h session
  rw [run_bind]
  cases ended : (m session).1 with
  | error reason =>
      refine ⟨done, added, fun beyond => ?_⟩
      cases ended.symm.trans (refused beyond)
      rfl
  | ok v =>
      obtain ⟨more, added', refused'⟩ := next v (m session).2
      refine ⟨done ++ more, ?_, ?_⟩
      · rw [← List.append_assoc, ← added]
        exact added'
      · rintro ⟨s, among, beyond⟩
        obtain earlier | later := List.mem_append.mp among
        · cases ended.symm.trans (refused ⟨s, earlier, beyond⟩)
        · exact refused' ⟨s, later, beyond⟩

theorem composes_refuses : Composes fun α (m : SqlAction α) (_ : SqlAction α) => Refuses m where
  result := refuses_ofExcept
  bind := Refuses.bind

theorem selectRows_refuses (q : LevelQuery) (key : Option KeyFilter) (columns : List String)
    (paged : Bool) : Refuses (selectRows q key columns paged) :=
  (refuses_issue _).bind fun _ => refuses_ofExcept _

theorem selectBatches_refuses (q : LevelQuery) (column : String) (columns : List String)
    (parts : List (List Json)) : Refuses (selectBatches q column columns parts) := by
  induction parts with
  | nil => exact refuses_ofExcept (.ok [])
  | cons keys rest ih =>
      refine (selectRows_refuses _ _ _ _).bind fun rows => ?_
      exact ih.bind fun more => refuses_ofExcept (.ok _)

theorem source_refuses (q : LevelQuery) : Refuses (st.source q) := by
  unfold source
  split
  · exact selectRows_refuses _ _ _ _
  · split
    · exact refuses_ofExcept (.ok [])
    · split
      · exact (selectBatches_refuses _ _ _ _).bind fun rows => refuses_ofExcept (.ok _)
      · exact selectRows_refuses _ _ _ _

theorem select_refuses (entity : String) (scope : KeyScope) (plan : FetchPlan) :
    Refuses (st.select entity scope plan) :=
  fetchGraph_related st.source st.source composes_refuses st.source_refuses entity scope plan

theorem Refuses.of_issuedBy (h : Refuses m) {session : SqlSession}
    (beyond : ∃ s ∈ issuedBy m session, ¬ s.WithinLimit) : (m session).1 = .error .database := by
  obtain ⟨done, added, refused⟩ := h session
  rw [issuedBy, added, List.drop_left] at beyond
  exact refused beyond

end Refusing

section Measuring

variable {α β : Type} {size : Nat}

/-- The second action does what the first does and notes the queries it asks, and all statements
issued by these are within the limit exactly if all the queries fit. -/
def Measured (size : Nat) (m : SqlAction α)
    (noted : ExceptT RequestError (StateM (SqlSession × List LevelQuery)) α) : Prop :=
  ∀ session before, ∃ asked done,
    noted (session, before) = ((m session).1, ((m session).2, before ++ asked)) ∧
    (m session).2.issued = session.issued ++ done ∧
    ((∀ s ∈ done, s.WithinLimit) ↔ ∀ q ∈ asked, q.Fits size)

theorem composes_measured (size : Nat) : Composes fun α => Measured (α := α) size where
  result r := fun session before =>
    ⟨[], [], by rw [List.append_nil]; rfl, (List.append_nil _).symm, by simp⟩
  bind := by
    intro α β x y f g first second session before
    obtain ⟨asked, done, ran, added, fits⟩ := first session before
    rw [Asks.bind_apply, run_bind, ran]
    cases (x session).1 with
    | error reason => exact ⟨asked, done, rfl, added, fits⟩
    | ok v =>
        obtain ⟨more, issued, ran', added', fits'⟩ := second v (x session).2 (before ++ asked)
        refine ⟨asked ++ more, done ++ issued, ?_, ?_, ?_⟩
        · rw [← List.append_assoc]
          exact ran'
        · rw [← List.append_assoc, ← added]
          exact added'
        · rw [List.forall_mem_append, List.forall_mem_append, fits, fits']

theorem source_measured (q : LevelQuery) :
    Measured (max st.batchSize 1) (st.source q) (RowSource.noted st.source q) := by
  intro session before
  obtain ⟨done, added, among, -⟩ := st.source_follows q session
  refine ⟨[q], done, rfl, added, ?_⟩
  rw [List.forall_mem_singleton]
  constructor
  · intro within
    obtain ⟨-, zero⟩ | ⟨first, rest, planned, most, -⟩ := st.plannedFetch_cases q
    · exact zero.trans_le (Nat.zero_le _)
    · exact most.symm.trans_le (within first ((st.source_opens planned).mem_of_append added))
  · exact fun fits s hs => (st.length_bound_le (among.subset hs)).trans fits

end Measuring

section Reads

variable {st} {entity : String} {scope : KeyScope} {plan : FetchPlan}

theorem withinLimit_of_plannedFor {e : Entity} {s : Statement}
    (room : ∀ owner level, st.registry.Reaches e plan owner level →
      max st.batchSize 1 + owner.operandCount level.predicates ≤ boundLimit)
    (planned : st.PlannedFor e plan s) : s.WithinLimit := by
  obtain ⟨q, leads, issued⟩ := planned
  apply (st.length_bound_le issued).trans
  apply (q.entity.mostBound_le _ _ _).trans
  cases leads with
  | level reached same => exact same ▸ room _ _ reached
  | links _ _ _ _ _ _ none =>
      -- Between two levels there are keys only, for which the root has room as well.
      rw [none]
      exact (Nat.add_le_add_left (Nat.zero_le _) _).trans (room e plan .root)

theorem fetchLevel_opens (e : Entity) {key : Option KeyFilter} (plan : FetchPlan) (root : Bool)
    (asks : key.any (·.keys.isEmpty) = false) :
    ∃ q : LevelQuery, q.entity = e ∧ q.key = key ∧ q.predicates = plan.predicates ∧
      ∀ first rest, st.plannedFetch q = first :: rest →
        Opens first (fetchLevel st.source st.registry e key root plan) := by
  obtain ⟨shownAs, relations, modifiers⟩ := plan
  unfold fetchLevel
  dsimp only
  rw [if_neg (by rw [asks]; exact Bool.false_ne_true)]
  refine ⟨_, ?_, ?_, ?_, fun first rest planned => (st.source_opens planned).bind fun rows =>
    ((attachAll_plannedFor e ⟨shownAs, relations, modifiers⟩ rows relations fun _ h => h).bind
      fun attached => issues_pure _ _).starts⟩ <;> rfl

/-- The first statement of a read is one for the root, with all its operands. -/
theorem select_beyondLimit {e : Entity} {key : Option KeyFilter}
    (registered : st.registry.get? entity = some e) (filtered : scope.filter? e = .ok key)
    (beyond : boundLimit < e.mostBound (max st.batchSize 1) key plan.predicates)
    (session : SqlSession) :
    ∃ s ∈ issuedBy (st.select entity scope plan) session, ¬ s.WithinLimit := by
  have asks : key.any (·.keys.isEmpty) = false := by
    cases key with
    | none => rfl
    | some k =>
        refine Bool.eq_false_iff.mpr fun empty => ?_
        have none : k.keys.isEmpty = true := empty
        simp [Entity.mostBound, none] at beyond
  obtain ⟨q, of, keyed, filters, opens⟩ := fetchLevel_opens e plan true asks
  have most : q.mostBound (max st.batchSize 1) =
      e.mostBound (max st.batchSize 1) key plan.predicates := by
    rw [LevelQuery.mostBound, of, keyed, filters]
  obtain ⟨-, none⟩ | ⟨first, rest, planned, bound, -⟩ := st.plannedFetch_cases q
  · rw [← most, none] at beyond
    cases beyond
  · have opened : Opens first (st.select entity scope plan) := by
      unfold select fetchGraph
      rw [registered]
      dsimp only
      rw [filtered]
      exact (opens first rest planned).bind fun level => (follows_pure _).starts
    obtain ⟨done, added, -⟩ := st.select_refuses entity scope plan session
    refine ⟨first, ?_, ?_⟩
    · rw [issuedBy, added, List.drop_left]
      exact opened.mem_of_append added
    · rw [Statement.WithinLimit, bound, most]
      exact Nat.not_le_of_lt beyond

end Reads

/-- A read keeps to the limit exactly if all queries that it asks fit, and is refused otherwise.
Every read of a plan keeps to it where each level leaves room for the operands of its predicates
beside as many keys as one statement has; no read does where the keys and the operands of the root
are too many. -/
theorem select_withinLimit (entity : String) (plan : FetchPlan) :
    (∀ scope session, ∃ asked,
      fetchGraph (RowSource.noted st.source) st.registry entity scope plan (session, []) =
        ((st.select entity scope plan session).1,
          ((st.select entity scope plan session).2, asked)) ∧
      ((∀ s ∈ issuedBy (st.select entity scope plan) session, s.WithinLimit) ↔
        ∀ q ∈ asked, q.Fits (max st.batchSize 1)) ∧
      ((∃ s ∈ issuedBy (st.select entity scope plan) session, ¬ s.WithinLimit) →
        (st.select entity scope plan session).1 = .error .database)) ∧
    ((∀ e, st.registry.get? entity = some e →
        ∀ owner level, st.registry.Reaches e plan owner level →
          max st.batchSize 1 + owner.operandCount level.predicates ≤ boundLimit) →
      ∀ scope, Issues Statement.WithinLimit (st.select entity scope plan)) ∧
    (∀ scope e key, st.registry.get? entity = some e → scope.filter? e = .ok key →
      boundLimit < e.mostBound (max st.batchSize 1) key plan.predicates →
      ∀ session, ∃ s ∈ issuedBy (st.select entity scope plan) session, ¬ s.WithinLimit) := by
  refine ⟨fun scope session => ?_, fun room scope => ?_, fun scope e key => select_beyondLimit⟩
  · obtain ⟨asked, done, ran, added, fits⟩ :=
      fetchGraph_related st.source (RowSource.noted st.source) (composes_measured _)
        st.source_measured entity scope plan session []
    refine ⟨asked, ran, ?_, (st.select_refuses entity scope plan).of_issuedBy⟩
    rw [issuedBy, select, added, List.drop_left]
    exact fits
  · apply (select_plannedFor entity scope plan).mono
    rintro s ⟨e, registered, planned⟩
    exact withinLimit_of_plannedFor (room e registered) planned

end SqlStore

namespace Catalog
open SqlStore

def batching : SqlStore := { registry }

def integers (first count : Nat) : List Json := (List.range' first count).map fun n => .ofInt n

theorem length_integers (first count : Nat) : (integers first count).length = count := by
  simp [integers]

def without (ids : List Json) : FetchPlan := ⟨none, [], [.filter ⟨"id", .notIn, .array ids⟩]⟩

theorem operandCount_without (ids : List Json) :
    category.operandCount (without ids).predicates = ids.length := rfl

/-- As many keys as one statement has, beside more operands than there is room for. -/
theorem without_beyondLimit : boundLimit < category.mostBound (max batching.batchSize 1)
    (some ⟨"id", integers 1 30000⟩) (without (integers 30001 2767)).predicates := by
  have present : ¬ (integers 1 30000).isEmpty = true := by
    rw [List.isEmpty_iff_length_eq_zero, length_integers]
    decide
  rw [Entity.mostBound, if_neg present, operandCount_without, length_integers, length_integers]
  decide

/-- One value more than the database takes. -/
theorem categories_refused :
    (∃ s ∈ issuedBy (batching.select "Category" (.many (integers 1 30000))
        (without (integers 30001 2767))) session, ¬ s.WithinLimit) ∧
    (batching.select "Category" (.many (integers 1 30000)) (without (integers 30001 2767))
      session).1 = .error .database := by
  have issued : ∃ s ∈ issuedBy (batching.select "Category" (.many (integers 1 30000))
      (without (integers 30001 2767))) session, ¬ s.WithinLimit :=
    select_beyondLimit rfl rfl without_beyondLimit session
  exact ⟨issued, (batching.select_refuses _ _ _).of_issuedBy issued⟩

def coursesOnWeb : FetchPlan :=
  ⟨none, [("category", ⟨none, [], [.filter ⟨"name", .eq, .string "Web"⟩]⟩)],
    [.filter ⟨"id", .isIn, .array [.ofInt 1, .ofInt 2]⟩]⟩

theorem coursesOnWeb_room : ∀ e, registry.get? "Course" = some e →
    ∀ owner level, registry.Reaches e coursesOnWeb owner level →
      max batching.batchSize 1 + owner.operandCount level.predicates ≤ boundLimit := by
  rintro _ ⟨⟩ owner level reached
  cases reached with
  | root => decide +kernel
  | relation asked related targets below =>
      cases List.mem_singleton.mp asked
      cases related
      cases targets
      cases below with
      | root => decide +kernel
      | relation asked => cases asked

/-- More keys than one statement has beside few operands, and just as many beside too many. -/
theorem select_withinLimit_courses :
    Issues Statement.WithinLimit
      (batching.select "Course" (.many (integers 1 40000)) coursesOnWeb) ∧
    ∃ s ∈ issuedBy (batching.select "Category" (.many (integers 1 30000))
      (without (integers 30001 2767))) session, ¬ s.WithinLimit :=
  ⟨(batching.select_withinLimit "Course" coursesOnWeb).2.1 coursesOnWeb_room _,
    (batching.select_withinLimit "Category" _).2.2 _ category _ rfl rfl without_beyondLimit
      session⟩

end Catalog
end EntityGraph
