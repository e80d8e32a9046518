import EntityGraph.Proofs.Columns
import EntityGraph.Proofs.Registry
import EntityGraph.Proofs.StatementText

/-!
Which statements a store on a database issues. A call has its statements planned before the first
is issued, and issues them in turn until one fails. A read of a plan issues what its levels need,
and whatever the plan says, a level names only the columns of its entity and those of joins.
-/

namespace EntityGraph

/-- The names that belong in statements about an entity: its table, its scalars, its primary field,
and the columns that relations of the registry join. -/
inductive Registry.Names (r : Registry) (e : Entity) : String → Prop
  | table : Names r e e.tableName
  | scalar {n : String} : n ∈ e.scalarNames → Names r e n
  | primary {n : String} : e.primaryField = some n → Names r e n
  | near {owner : Entity} {name : String} {rel : Relation} :
      r.Has owner → owner.relation? name = some rel → Names r e rel.join.near
  | far {owner : Entity} {name : String} {rel : Relation} :
      r.Has owner → owner.relation? name = some rel → Names r e rel.join.far

namespace SqlStore

open Sql

/-- What the action issues, begun on the session. -/
def issuedBy {α : Type} (m : SqlAction α) (session : SqlSession) : List Statement :=
  (m session).2.issued.drop session.issued.length

section Rules

variable {α β : Type} {m : SqlAction α} {f : α → SqlAction β}

theorem run_bind (m : SqlAction α) (f : α → SqlAction β) (session : SqlSession) :
    (m >>= f) session = ExceptT.bindCont f (m session).1 (m session).2 := rfl

/-- The action issues statements of the given kind only, after those that are there. -/
def Issues (P : Statement → Prop) (m : SqlAction α) : Prop :=
  ∀ session, session.issued <+: (m session).2.issued ∧ ∀ s ∈ issuedBy m session, P s

theorem issues_of_append {P : Statement → Prop} {m : SqlAction α}
    (h : ∀ session, ∃ done, (m session).2.issued = session.issued ++ done ∧ ∀ s ∈ done, P s) :
    Issues P m := by
  intro session
  obtain ⟨done, added, all⟩ := h session
  rw [issuedBy, added, List.drop_left]
  exact ⟨List.prefix_append _ _, all⟩

theorem Issues.append {P : Statement → Prop} (h : Issues P m) (session : SqlSession) :
    ∃ done, (m session).2.issued = session.issued ++ done ∧ ∀ s ∈ done, P s := by
  obtain ⟨⟨done, added⟩, all⟩ := h session
  rw [issuedBy, ← added, List.drop_left] at all
  exact ⟨done, added.symm, all⟩

theorem issues_pure (P : Statement → Prop) (v : α) : Issues P (pure v : SqlAction α) :=
  issues_of_append fun _ => ⟨[], (List.append_nil _).symm, nofun⟩

theorem issues_throw (P : Statement → Prop) (reason : RequestError) :
    Issues P (throw reason : SqlAction α) :=
  issues_of_append fun _ => ⟨[], (List.append_nil _).symm, nofun⟩

theorem Issues.bind {P : Statement → Prop} (hm : Issues P m) (hf : ∀ v, Issues P (f v)) :
    Issues P (m >>= f) := by
  refine issues_of_append fun session => ?_
  obtain ⟨done, added, all⟩ := hm.append session
  rw [run_bind]
  cases (m session).1 with
  | error reason => exact ⟨done, added, all⟩
  | ok v =>
      obtain ⟨more, added', all'⟩ := (hf v).append (m session).2
      refine ⟨done ++ more, ?_, List.forall_mem_append.mpr ⟨all, all'⟩⟩
      rw [← List.append_assoc, ← added]
      exact added'

/-- The action issues the planned statements in turn, and all of them unless it fails. -/
def Follows (planned : List Statement) (m : SqlAction α) : Prop :=
  ∀ session, ∃ done, (m session).2.issued = session.issued ++ done ∧ done <+: planned ∧
    ∀ v, (m session).1 = .ok v → done = planned

theorem follows_pure (v : α) : Follows [] (pure v : SqlAction α) :=
  fun _ => ⟨[], (List.append_nil _).symm, List.prefix_rfl, fun _ _ => rfl⟩

theorem follows_throw (planned : List Statement) (reason : RequestError) :
    Follows planned (throw reason : SqlAction α) :=
  fun _ => ⟨[], (List.append_nil _).symm, ⟨_, rfl⟩, nofun⟩

theorem follows_ofExcept (result : Except RequestError α) : Follows [] (ofExcept result) :=
  fun _ => ⟨[], (List.append_nil _).symm, List.prefix_rfl, fun _ _ => rfl⟩

theorem follows_issue (s : Statement) : Follows [s] (issue s) := by
  intro session
  refine ⟨[s], ?_, List.prefix_rfl, fun _ _ => rfl⟩
  dsimp only [issue]
  cases s.run session.database <;> rfl

theorem Follows.bind {first rest : List Statement} (hm : Follows first m)
    (hf : ∀ v, Follows rest (f v)) : Follows (first ++ rest) (m >>= f) := by
  intro session
  obtain ⟨done, added, some_of, whole⟩ := hm session
  rw [run_bind]
  cases result : (m session).1 with
  | error reason =>
      exact ⟨done, added, some_of.trans (List.prefix_append _ _), nofun⟩
  | ok v =>
      obtain ⟨more, added', some_of', whole'⟩ := hf v (m session).2
      obtain rfl := whole v result
      refine ⟨done ++ more, ?_, ?_, ?_⟩
      · rw [← List.append_assoc, ← added]
        exact added'
      · exact (List.prefix_append_right_inj done).mpr some_of'
      · intro w done'
        rw [whole' w done']

theorem Follows.last {planned : List Statement} (hm : Follows planned m)
    (hf : ∀ v, Follows [] (f v)) : Follows planned (m >>= f) := by
  have both := hm.bind hf
  rwa [List.append_nil] at both

theorem Follows.issues {P : Statement → Prop} {planned : List Statement} (h : Follows planned m)
    (all : ∀ s ∈ planned, P s) : Issues P m := by
  refine issues_of_append fun session => ?_
  obtain ⟨done, added, some_of, _⟩ := h session
  exact ⟨done, added, fun s hs => all s (some_of.subset hs)⟩

theorem Follows.issuedBy_starts {planned : List Statement} (h : Follows planned m)
    (session : SqlSession) : issuedBy m session <+: planned := by
  obtain ⟨done, added, some_of, _⟩ := h session
  rwa [issuedBy, added, List.drop_left]

theorem Follows.issuedBy_eq {planned : List Statement} (h : Follows planned m)
    {session : SqlSession} {v : α} (succeeds : (m session).1 = .ok v) :
    issuedBy m session = planned := by
  obtain ⟨done, added, _, whole⟩ := h session
  rw [issuedBy, added, List.drop_left, whole v succeeds]

end Rules

/-- A call of the store that is not made of other calls. -/
inductive Call where
  | fetch (q : LevelQuery)
  | insert (entity : String) (row : Row)
  | patch (entity : String) (key : Json) (row : Row)
  | delete (entity : String) (key : Json)
  | createTable (e : Entity)

variable (st : SqlStore)

def perform : Call → SqlAction Unit
  | .fetch q => do let _ ← st.source q
  | .insert entity row => do let _ ← st.insert entity row
  | .patch entity key row => do let _ ← st.patch entity key row
  | .delete entity key => do let _ ← st.delete entity key
  | .createTable e => createTables [e]

/-- The statements of a query for one level, of which long key lists need several. -/
def plannedFetch (q : LevelQuery) : List Statement :=
  match q.key with
  | none => [.select (selectOf q none q.columns true)]
  | some k =>
      if k.keys.isEmpty then []
      else if max st.batchSize 1 < k.keys.length then
        (batches (max st.batchSize 1) k.keys.length k.keys).map fun keys =>
          .select (selectOf q (some ⟨k.column, keys⟩) (orderedColumns q) false)
      else [.select (selectOf q (some k) q.columns true)]

/-- The statements of a call. One that names no entity, or one without the key it needs, has
none. -/
def planned : Call → List Statement
  | .fetch q => st.plannedFetch q
  | .insert entity row =>
      (st.registry.get? entity).toList.flatMap fun e =>
        [.insert e.tableName (declaredValues e row) e.scalarNames]
  | .patch entity key row =>
      (st.registry.get? entity).toList.flatMap fun e =>
        e.primaryField.toList.flatMap fun primary =>
          [.update e.tableName (declaredValues e row) primary key e.scalarNames]
  | .delete entity key =>
      (st.registry.get? entity).toList.flatMap fun e =>
        e.primaryField.toList.flatMap fun primary => [.delete e.tableName primary key]
  | .createTable e => if e.hasInputs then [createTable e] else []

theorem selectRows_follows (q : LevelQuery) (key : Option KeyFilter) (columns : List String)
    (paged : Bool) :
    Follows [.select (selectOf q key columns paged)] (selectRows q key columns paged) :=
  (follows_issue _).last fun _ => follows_ofExcept _

theorem selectBatches_follows (q : LevelQuery) (column : String) (columns : List String)
    (parts : List (List Json)) :
    Follows (parts.map fun keys => .select (selectOf q (some ⟨column, keys⟩) columns false))
      (selectBatches q column columns parts) := by
  induction parts with
  | nil => exact follows_pure _
  | cons keys rest ih =>
      rw [List.map_cons, ← List.singleton_append]
      exact (selectRows_follows _ _ _ _).bind fun rows => ih.last fun more => follows_pure _

theorem source_follows (q : LevelQuery) : Follows (st.plannedFetch q) (st.source q) := by
  cases hkey : q.key with
  | none =>
      simp only [source, plannedFetch, hkey]
      exact selectRows_follows _ _ _ _
  | some k =>
      simp only [source, plannedFetch, hkey]
      split
      · exact follows_pure _
      · split
        · exact (selectBatches_follows _ _ _ _).last fun rows => follows_pure _
        · exact selectRows_follows _ _ _ _

theorem createTables_follows (entities : List Entity) :
    Follows (entities.flatMap fun e => st.planned (.createTable e)) (createTables entities) := by
  induction entities with
  | nil => exact follows_pure _
  | cons e rest ih =>
      simp only [createTables, List.flatMap_cons, planned]
      split
      · exact (follows_issue _).bind fun _ => ih
      · exact ih

theorem firstRow_follows (e : Entity) (s : Statement) : Follows [s] (firstRow e s) := by
  refine (follows_issue s).last fun outcome => ?_
  split
  · exact follows_pure _
  · exact (follows_ofExcept _).last fun row => follows_pure _

theorem entityOf_follows {entity : String} {planned : Entity → List Statement} {α : Type}
    {f : Entity → SqlAction α}
    (h : ∀ e, st.registry.get? entity = some e → Follows (planned e) (f e)) :
    Follows ((st.registry.get? entity).toList.flatMap planned) (st.entityOf entity >>= f) := by
  unfold entityOf
  cases known : st.registry.get? entity with
  | none => exact follows_throw _ _
  | some e =>
      rw [Option.toList_some, List.flatMap_singleton]
      exact h e known

theorem primaryOf_follows {e : Entity} {planned : String → List Statement} {α : Type}
    {f : String → SqlAction α}
    (h : ∀ primary, e.primaryField = some primary → Follows (planned primary) (f primary)) :
    Follows (e.primaryField.toList.flatMap planned) (primaryOf e >>= f) := by
  unfold primaryOf
  cases hprimary : e.primaryField with
  | none => exact follows_throw _ _
  | some primary =>
      rw [Option.toList_some, List.flatMap_singleton]
      exact h primary hprimary

theorem insert_follows (entity : String) (row : Row) :
    Follows (st.planned (.insert entity row)) (st.insert entity row) := by
  refine st.entityOf_follows fun e _ => (firstRow_follows _ _).last fun found => ?_
  split
  · exact follows_pure _
  · exact follows_throw _ _

theorem patch_follows (entity : String) (key : Json) (row : Row) :
    Follows (st.planned (.patch entity key row)) (st.patch entity key row) := by
  refine st.entityOf_follows fun e _ => primaryOf_follows fun primary _ => ?_
  exact firstRow_follows _ _

theorem delete_follows (entity : String) (key : Json) :
    Follows (st.planned (.delete entity key)) (st.delete entity key) := by
  refine st.entityOf_follows fun e _ => primaryOf_follows fun primary _ => ?_
  exact (follows_issue _).last fun outcome => follows_pure _

/-- What is planned is what is issued. -/
theorem perform_follows (call : Call) : Follows (st.planned call) (st.perform call) := by
  cases call with
  | fetch q => exact (st.source_follows q).last fun _ => follows_pure ()
  | insert entity row => exact (st.insert_follows entity row).last fun _ => follows_pure ()
  | patch entity key row => exact (st.patch_follows entity key row).last fun _ => follows_pure ()
  | delete entity key => exact (st.delete_follows entity key).last fun _ => follows_pure ()
  | createTable e =>
      have alone := st.createTables_follows [e]
      rwa [List.flatMap_singleton] at alone

section Confined

variable {st} {r : Registry} {e : Entity}

/-- The text can be read, and the names in quotes are those that belong there for an entity. -/
def Confined (r : Registry) (s : Statement) : Prop :=
  ∃ e, r.Has e ∧ ∃ tokens, Token.ofText? s.text = some tokens ∧
    ∀ n, .quoted n ∈ tokens → r.Names e n

theorem confined_of_names {s : Statement} (has : r.Has e)
    (h : ∀ n, .name n ∈ s.pieces → r.Names e n) : Confined r s :=
  ⟨e, has, _, s.ofText?_text, fun n hn => h n (Piece.quoted_mem_tokensFrom.mp hn)⟩

theorem names_of_hasScalar {n : String} (h : e.hasScalar n = true) : r.Names e n :=
  .scalar (Entity.mem_scalarNames_of_hasScalar h)

theorem names_of_mem_declaredValues {row : Row} {n : String}
    (h : n ∈ Dict.keys (declaredValues e row)) : r.Names e n := by
  obtain ⟨entry, hentry, rfl⟩ := List.mem_map.mp h
  exact names_of_hasScalar (List.mem_filter.mp hentry).2

theorem confined_insert (has : r.Has e) (row : Row) :
    Confined r (.insert e.tableName (declaredValues e row) e.scalarNames) := by
  refine confined_of_names has fun n hn => ?_
  obtain rfl | written | returned := Statement.name_mem_insert.mp hn
  · exact .table
  · exact names_of_mem_declaredValues written
  · exact .scalar returned

theorem confined_update (has : r.Has e) {primary : String}
    (hprimary : e.primaryField = some primary) (row : Row) (key : Json) :
    Confined r (.update e.tableName (declaredValues e row) primary key e.scalarNames) := by
  refine confined_of_names has fun n hn => ?_
  obtain rfl | rfl | written | returned := Statement.name_mem_update.mp hn
  · exact .table
  · exact .primary hprimary
  · exact names_of_mem_declaredValues written
  · exact .scalar returned

theorem confined_delete (has : r.Has e) {primary : String}
    (hprimary : e.primaryField = some primary) (key : Json) :
    Confined r (.delete e.tableName primary key) := by
  refine confined_of_names has fun n hn => ?_
  obtain rfl | rfl := Statement.name_mem_delete.mp hn
  · exact .table
  · exact .primary hprimary

theorem confined_createTable (has : r.Has e) : Confined r (createTable e) := by
  refine confined_of_names has fun n hn => ?_
  obtain rfl | ⟨c, hc, rfl⟩ := Statement.name_mem_createTable.mp hn
  · exact .table
  · obtain ⟨field, hfield, rfl⟩ := List.mem_map.mp hc
    exact .scalar (List.mem_map_of_mem hfield)

/-- The names that come from outside the query's entity belong to it. Filters and orders on other
columns are left out of the statement. -/
structure NamesOwn (r : Registry) (q : LevelQuery) : Prop where
  has : r.Has q.entity
  columns : ∀ c ∈ q.columns, r.Names q.entity c
  key : ∀ k, q.key = some k → r.Names q.entity k.column

theorem field_of_column? {p : Predicate} {c : Condition} (h : Condition.ofPredicate? p = some c)
    {n : String} (hn : c.column? = some n) : p.field = n := by
  obtain ⟨field, op, value⟩ := p
  cases op with
  | isIn =>
      obtain rfl := Option.some.inj h
      split at hn
      · cases hn
      · exact Option.some.inj hn
  | notIn =>
      dsimp only [Condition.ofPredicate?] at h
      split at h <;> cases h
      exact Option.some.inj hn
  | isNull =>
      obtain rfl := Option.some.inj h
      split at hn <;> exact Option.some.inj hn
  | eq | notEq | gt | gte | lt | lte | like | likeNoCase =>
      cases h
      exact Option.some.inj hn

theorem hasScalar_of_column? {q : LevelQuery} {c : Condition} (hc : c ∈ conditionsOf q)
    {n : String} (hn : c.column? = some n) : q.entity.hasScalar n = true := by
  obtain ⟨p, hp, made⟩ := List.mem_filterMap.mp hc
  rw [← field_of_column? made hn]
  exact (List.mem_filter.mp hp).2

theorem confined_select {q : LevelQuery} (own : NamesOwn r q) {key : Option KeyFilter}
    (hkey : ∀ k, key = some k → r.Names q.entity k.column) {columns : List String}
    (hcolumns : ∀ c ∈ columns, r.Names q.entity c) (paged : Bool) :
    Confined r (.select (selectOf q key columns paged)) := by
  refine confined_of_names own.has fun n hn => ?_
  obtain column | rfl | ⟨c, hc, asked⟩ | ⟨k, hk, rfl⟩ := Select.name_mem_pieces.mp hn
  · exact hcolumns n column
  · exact .table
  · obtain keyed | filtered := List.mem_append.mp hc
    · cases key with
      | none => cases keyed
      | some k =>
          obtain rfl := List.mem_singleton.mp keyed
          obtain rfl : k.column = n := Option.some.inj asked
          exact hkey k rfl
    · exact names_of_hasScalar (hasScalar_of_column? filtered asked)
  · exact names_of_hasScalar (List.mem_filter.mp hk).2

theorem confined_plannedFetch {q : LevelQuery} (own : NamesOwn r q) :
    ∀ s ∈ st.plannedFetch q, Confined r s := by
  have ordered : ∀ c ∈ orderedColumns q, r.Names q.entity c := by
    intro c hc
    obtain selected | sorted := mem_foldl_addName.mp hc
    · exact own.columns c selected
    · obtain ⟨k, hk, rfl⟩ := List.mem_map.mp sorted
      exact names_of_hasScalar (List.mem_filter.mp hk).2
  unfold plannedFetch
  split
  · rw [List.forall_mem_singleton]
    refine confined_select own ?_ own.columns true
    rintro k ⟨⟩
  · rename_i k hkey
    split
    · exact nofun
    · split
      · rw [List.forall_mem_map]
        intro keys _
        refine confined_select own ?_ ordered false
        rintro _ ⟨⟩
        exact own.key k hkey
      · rw [List.forall_mem_singleton]
        exact confined_select own (fun k' same => own.key k' (hkey.trans same)) own.columns true

theorem source_confined {q : LevelQuery} (own : NamesOwn r q) :
    Issues (Confined r) (st.source q) :=
  (st.source_follows q).issues (confined_plannedFetch own)

theorem names_foldl_addName {names start : List String} (hstart : ∀ c ∈ start, r.Names e c)
    (hnames : ∀ c ∈ names, r.Names e c) : ∀ c ∈ names.foldl addName start, r.Names e c :=
  fun c hc => (mem_foldl_addName.mp hc).elim (hstart c) (hnames c)

theorem names_columnsOf (e : Entity) (plan : FetchPlan) : ∀ c ∈ plan.columnsOf e, r.Names e c := by
  intro c hc
  unfold FetchPlan.columnsOf at hc
  split at hc
  · exact names_of_hasScalar (List.mem_filter.mp hc).2
  · exact .scalar hc

/-- The columns by which a relation is expanded join some relations of the registry. -/
structure Joins (r : Registry) (x : Expansion) : Prop where
  target : r.Has x.target
  owner : ∀ e, r.Names e x.ownerColumn
  near : ∀ e, r.Names e x.relation.join.near
  far : ∀ e, r.Names e x.relation.join.far
  via : ∀ rel, x.via = some rel → ∀ e, r.Names e rel.join.far

theorem joins_of_expansion? (has : r.Has e) {name : String} {child : FetchPlan} {x : Expansion}
    (h : r.expansion? e name child = some x) : Joins r x := by
  unfold Registry.expansion? at h
  obtain ⟨rel, hrel, h⟩ := Option.bind_eq_some_iff.mp h
  obtain ⟨target, htarget, h⟩ := Option.bind_eq_some_iff.mp h
  split at h
  · obtain ⟨via, hvia, h⟩ := Option.bind_eq_some_iff.mp h
    cases h
    refine ⟨⟨_, htarget⟩, fun _ => .near has hvia, fun _ => .near has hrel,
      fun _ => .far has hrel, ?_⟩
    rintro _ ⟨⟩ _
    exact .far has hvia
  · cases h
    exact ⟨⟨_, htarget⟩, fun _ => .near has hrel, fun _ => .near has hrel,
      fun _ => .far has hrel, nofun⟩

theorem names_owners (has : r.Has e) (relations : List (String × FetchPlan)) :
    ∀ c ∈ (r.expansions e relations).map (·.ownerColumn), r.Names e c := by
  intro c hc
  obtain ⟨x, hx, rfl⟩ := List.mem_map.mp hc
  obtain ⟨⟨name, child⟩, _, expanded⟩ := List.mem_filterMap.mp hx
  exact (joins_of_expansion? has expanded).owner e

theorem fetchLinks_confined {x : Expansion} (joins : Joins r x) {via : Relation}
    (hvia : x.via = some via) {middle : Entity} (has : r.Has middle) (parents : List Row) :
    Issues (Confined r) (fetchLinks st.source x via middle parents) := by
  unfold fetchLinks
  dsimp only
  split
  · exact issues_pure _ _
  · refine (source_confined ⟨has, ?_, ?_⟩).bind fun rows => issues_pure _ _
    · have near : ∀ c ∈ [x.relation.join.near], r.Names middle c :=
        List.forall_mem_singleton.mpr (joins.near middle)
      exact names_foldl_addName (List.forall_mem_singleton.mpr (joins.via via hvia middle)) near
    · rintro _ ⟨⟩
      exact joins.via via hvia middle

mutual

/-- Whatever a plan asks for, its levels name no more than belongs there. -/
theorem fetchLevel_confined {e : Entity} (has : r.Has e) {key : Option KeyFilter}
    (hkey : ∀ k, key = some k → r.Names e k.column) (root : Bool) :
    ∀ plan : FetchPlan, Issues (Confined r) (fetchLevel st.source r e key root plan)
  | ⟨shownAs, relations, modifiers⟩ => by
      unfold fetchLevel
      dsimp only
      split
      · exact issues_pure _ _
      · refine (source_confined ⟨has, ?_, hkey⟩).bind fun rows => ?_
        · refine names_foldl_addName (names_columnsOf e _) ?_
          refine List.forall_mem_append.mpr ⟨names_owners has relations, ?_⟩
          intro c hc
          obtain ⟨k, hk, rfl⟩ := Option.mem_map.mp (Option.mem_toList.mp hc)
          exact hkey k hk
        · exact (attachAll_confined has rows relations).bind fun attached => issues_pure _ _

theorem attachAll_confined {e : Entity} (has : r.Has e) (rows : List Row) :
    ∀ relations : List (String × FetchPlan),
      Issues (Confined r) (attachAll st.source r e rows relations)
  | [] => issues_pure _ rows
  | (name, child) :: rest => by
      unfold attachAll
      split
      · exact attachAll_confined has rows rest
      · rename_i x expanded
        have joins := joins_of_expansion? has expanded
        have keyed : ∀ keys k, some (⟨x.relation.join.far, keys⟩ : KeyFilter) = some k →
            r.Names x.target k.column := by
          rintro keys _ ⟨⟩
          exact joins.far x.target
        dsimp only
        split
        · refine (fetchLevel_confined joins.target (keyed _) false child).bind fun children => ?_
          exact attachAll_confined has _ rest
        · rename_i via hvia
          split
          · exact attachAll_confined has rows rest
          · rename_i middle hmiddle
            refine (fetchLinks_confined joins hvia ⟨_, hmiddle⟩ rows).bind fun links => ?_
            refine (fetchLevel_confined joins.target (keyed _) false child).bind fun children => ?_
            exact attachAll_confined has _ rest

end

theorem names_of_filter? {scope : KeyScope} {key : Option KeyFilter}
    (h : scope.filter? e = .ok key) : ∀ k, key = some k → r.Names e k.column := by
  have keyed : ∀ {keys key}, KeyScope.filter?.keyed e keys = .ok key →
      ∀ k, key = some k → r.Names e k.column := by
    intro keys key h
    unfold KeyScope.filter?.keyed at h
    split at h
    · rename_i primary hprimary
      cases h
      rintro _ ⟨⟩
      exact .primary hprimary
    · cases h
  cases scope with
  | all =>
      cases h
      exact nofun
  | one _ | many _ => exact keyed h

/-- A read of a plan, whatever it asks for. -/
theorem select_confined (entity : String) (scope : KeyScope) (plan : FetchPlan) :
    Issues (Confined st.registry) (st.select entity scope plan) := by
  unfold select fetchGraph
  split
  · exact issues_throw _ _
  · rename_i e registered
    cases filtered : scope.filter? e with
    | error reason => exact issues_throw _ reason
    | ok key =>
        exact (fetchLevel_confined ⟨entity, registered⟩ (names_of_filter? filtered) true plan).bind
          fun level => issues_pure _ _

theorem forall_mem_entity {P : Statement → Prop} {name : String} {planned : Entity → List Statement}
    (h : ∀ e, r.get? name = some e → ∀ s ∈ planned e, P s) :
    ∀ s ∈ (r.get? name).toList.flatMap planned, P s := by
  rw [List.forall_mem_flatMap]
  exact fun e he => h e (Option.mem_toList.mp he)

theorem forall_mem_primary {P : Statement → Prop} {planned : String → List Statement}
    (h : ∀ primary, e.primaryField = some primary → ∀ s ∈ planned primary, P s) :
    ∀ s ∈ e.primaryField.toList.flatMap planned, P s := by
  rw [List.forall_mem_flatMap]
  exact fun primary hprimary => h primary (Option.mem_toList.mp hprimary)

theorem insert_confined (entity : String) (row : Row) :
    Issues (Confined st.registry) (st.insert entity row) := by
  refine (st.insert_follows entity row).issues (forall_mem_entity fun e registered => ?_)
  exact List.forall_mem_singleton.mpr (confined_insert ⟨entity, registered⟩ row)

theorem patch_confined (entity : String) (key : Json) (row : Row) :
    Issues (Confined st.registry) (st.patch entity key row) := by
  refine (st.patch_follows entity key row).issues (forall_mem_entity fun e registered => ?_)
  refine forall_mem_primary fun primary hprimary => ?_
  exact List.forall_mem_singleton.mpr (confined_update ⟨entity, registered⟩ hprimary row key)

theorem delete_confined (entity : String) (key : Json) :
    Issues (Confined st.registry) (st.delete entity key) := by
  refine (st.delete_follows entity key).issues (forall_mem_entity fun e registered => ?_)
  refine forall_mem_primary fun primary hprimary => ?_
  exact List.forall_mem_singleton.mpr (confined_delete ⟨entity, registered⟩ hprimary key)

theorem createTables_confined (entities : List Entity) (has : ∀ e ∈ entities, st.registry.Has e) :
    Issues (Confined st.registry) (createTables entities) := by
  refine (st.createTables_follows entities).issues ?_
  rw [List.forall_mem_flatMap]
  intro e he
  simp only [planned]
  split
  · exact List.forall_mem_singleton.mpr (confined_createTable (has e he))
  · exact nofun

end Confined

end SqlStore
end EntityGraph
