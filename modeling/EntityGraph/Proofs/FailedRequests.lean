import EntityGraph.Proofs.RootAnswers
import EntityGraph.Proofs.StepwiseCalls

/-!
What a request leaves behind in the store. An operation makes one call of the store at most, and
fails before it, in it, or because it found no row. A call writes the table of its entity and no
other, and a call that fails or finds no row writes nothing that shows.
-/

namespace EntityGraph

/-- What an operation that is carried out does to the table of its entity. -/
inductive Table.Effect : OperationKind → Table → Table → Prop
  | readOne (t : Table) : Effect .readOne t t
  | readMany (t : Table) : Effect .readMany t t
  | create (t : Table) (row : Row) (last : Int) : Effect .create t ⟨t.rows ++ [row], last⟩
  | update (before after : List Row) (row written : Row) (last : Int) :
      Effect .update ⟨before ++ row :: after, last⟩ ⟨before ++ written :: after, last⟩
  | delete (t : Table) (gone : Row → Bool) :
      (∃ row ∈ t.rows, gone row = true) →
      Effect .delete t { t with rows := t.rows.filter fun row => !gone row }

namespace MemoryStore

/-- Every entity has the same rows and gives out the same key next. -/
def SameTables (s after : MemoryStore) : Prop := ∀ name, after.table name = s.table name

variable {r : Registry} {s after : MemoryStore} {name : String}

theorem rows_of_addRow {e : Entity} {t t' : Table} {row stored : Row}
    (h : addRow e t row = .ok (stored, t')) : t'.rows = t.rows ++ [stored] := by
  unfold addRow at h
  dsimp only at h
  split at h
  · cases h
    rfl
  · split at h
    · cases h
      rfl
    · split at h <;> cases h
      rfl

theorem insert_effect {values : Row} {v : Json} (h : insert r s name values = .ok (v, after)) :
    (∀ other, other ≠ name → after.table other = s.table other) ∧
      Table.Effect .create (s.table name) (after.table name) := by
  unfold insert at h
  split at h
  · cases h
  · rename_i e _
    obtain ⟨⟨stored, t⟩, added, done⟩ := Except.bind_eq_ok.mp h
    cases done
    refine ⟨?_, ?_⟩
    · intro other different
      rw [table_insert, if_neg different.symm]
    · rw [table_insert, if_pos rfl]
      obtain ⟨rows, last⟩ := t
      rw [show rows = (s.table name).rows ++ [stored] from rows_of_addRow added]
      exact .create _ _ _

theorem patch_effect {key : Json} {values : Row} {found : Option Json}
    (h : patch r s name key values = .ok (found, after)) :
    (∀ other, other ≠ name → after.table other = s.table other) ∧
      (found = none → after = s) ∧
      (∀ v, found = some v → Table.Effect .update (s.table name) (after.table name)) := by
  unfold patch at h
  obtain ⟨⟨e, primary⟩, _, h⟩ := Except.bind_eq_ok.mp h
  dsimp only at h
  split at h
  · cases h
    exact ⟨fun _ _ => rfl, fun _ => rfl, nofun⟩
  · rename_i row rows patched
    cases h
    refine ⟨?_, nofun, ?_⟩
    · intro other different
      rw [table_insert, if_neg different.symm]
    · intro v _
      obtain ⟨before, old, behind, split, _, _, rfl, rfl⟩ := patchFirst_eq_some patched
      rw [table_insert, if_pos rfl]
      cases stored : s.table name with
      | mk rows last =>
          rw [stored] at split
          subst split
          exact .update _ _ _ _ _

theorem delete_effect {key : Json} {removed : Nat}
    (h : delete r s name key = .ok (removed, after)) :
    (∀ other, other ≠ name → after.table other = s.table other) ∧
      (removed = 0 → s.SameTables after) ∧
      (0 < removed → Table.Effect .delete (s.table name) (after.table name)) := by
  unfold delete at h
  obtain ⟨⟨e, primary⟩, _, h⟩ := Except.bind_eq_ok.mp h
  cases h
  have others : ∀ other, other ≠ name → table (Dict.insert s name
      { s.table name with
        rows := (s.table name).rows.filter fun row => !hasKey primary key row }) other =
      s.table other := by
    intro other different
    rw [table_insert, if_neg different.symm]
  have shorter := List.length_filter_le (fun row => !hasKey primary key row) (s.table name).rows
  refine ⟨others, ?_, ?_⟩
  · intro none_removed other
    have all : (s.table name).rows.filter (fun row => !hasKey primary key row) =
        (s.table name).rows :=
      List.filter_sublist.eq_of_length (by omega)
    by_cases same : other = name
    · rw [same, table_insert, if_pos rfl, all]
    · exact others other same
  · intro some_removed
    rw [table_insert, if_pos rfl]
    refine .delete _ (hasKey primary key) ?_
    by_contra absent
    have all : (s.table name).rows.filter (fun row => !hasKey primary key row) =
        (s.table name).rows := by
      refine List.filter_eq_self.mpr ?_
      intro row hrow
      simpa using fun hit => absent ⟨row, hrow, hit⟩
    rw [all] at some_removed
    omega

end MemoryStore

namespace Executor

open Exec

/-- What an operation on the entity has kept of the store on which it began. A failure and a read
keep every table, and so does a delete that finds no row. Every operation keeps the tables of all
other entities. One that has called the store and has not failed has had its effect. -/
structure Keeps (kind : OperationKind) (name : String) (s : MemoryStore)
    (o : Outcome MemoryStore Json) : Prop where
  failed : ∀ fault, o.result = .error fault → s.SameTables o.store
  read : kind = .readOne ∨ kind = .readMany → s.SameTables o.store
  absent : kind = .delete → o.result = .ok (.bool false) → s.SameTables o.store
  others : ∀ other, other ≠ name → o.store.table other = s.table other
  effect : ∀ v, o.result = .ok v → v ≠ .bool false → (∃ e ∈ o.events, e.isCall = true) →
    Table.Effect kind (s.table name) (o.store.table name)

section OneCall

variable {σ : Type} (x : Executor σ) (request : Request) (e : Entity)

/-- The one call that an operation makes, and what it makes of the answer. -/
inductive OneCall : OperationKind → Exec σ Json → Prop
  | readOne (key : Json) : OneCall .readOne (do
      match ← x.select e (.one key) request with
      | row :: _ => return row
      | [] => throw (.notFound e.name key))
  | readMany (scope : KeyScope) : OneCall .readMany (do
      return .array (← x.select e scope request))
  | create (input : Row) : OneCall .create
      (onStore (.insert e.name input) (x.storage.insert e.name input))
  | update (key : Json) (input : Row) : OneCall .update (do
      match ← onStore (.patch e.name key input) (x.storage.patch e.name key input) with
      | some row => return row
      | none => throw (.notFound e.name key))
  | delete (key : Json) : OneCall .delete (do
      let removed ← onStore (.delete e.name key) (x.storage.delete e.name key)
      return .bool (0 < removed))

variable {x request e}

/-- The action fails at once, or it is as described. -/
def FailsOr (P : Exec σ Json → Prop) (m : Exec σ Json) : Prop := (∃ fault, m = throw fault) ∨ P m

section Rules

variable {P : Exec σ Json → Prop}

theorem failsOr_entity (name : String) {f : Entity → Exec σ Json}
    (h : ∀ e, x.registry.get? name = some e → FailsOr P (f e)) :
    FailsOr P (x.entity name >>= f) := by
  cases known : x.registry.get? name with
  | none =>
      rw [entity_of_unknown x known]
      exact .inl ⟨_, rfl⟩
  | some e =>
      rw [entity_of_known x known, pure_bind]
      exact h e known

theorem failsOr_primaryField {f : String → Exec σ Json} (h : ∀ primary, FailsOr P (f primary)) :
    FailsOr P (primaryField e >>= f) := by
  cases hprimary : e.primaryField with
  | none =>
      rw [primaryField_of_none hprimary]
      exact .inl ⟨_, rfl⟩
  | some primary =>
      rw [primaryField_of_some hprimary, pure_bind]
      exact h primary

theorem failsOr_requiredArgument {arguments : Row} {name : String} {f : Json → Exec σ Json}
    (h : ∀ v, FailsOr P (f v)) : FailsOr P (requiredArgument arguments name >>= f) := by
  unfold requiredArgument
  dsimp only
  split
  · exact .inl ⟨_, rfl⟩
  · exact h _

theorem failsOr_inputArgument {arguments : Row} {name : String} {f : Row → Exec σ Json}
    (h : ∀ input, FailsOr P (f input)) : FailsOr P (inputArgument arguments name >>= f) := by
  unfold inputArgument
  split
  · exact h _
  · exact .inl ⟨_, rfl⟩

end Rules

/-- Without a hook an operation fails at once, or it makes its call. -/
theorem dispatch_bare_cases (x : Executor σ) (request : Request) (op : DefaultOperation) :
    FailsOr (fun m => ∃ e, x.registry.get? op.entity = some e ∧ x.OneCall request e op.kind m)
      (x.dispatch (.standard op.bare) request) := by
  obtain ⟨kind, name, hook⟩ := op
  cases kind with
  | readOne =>
      refine failsOr_entity name fun e known => failsOr_primaryField fun _ => ?_
      exact failsOr_requiredArgument fun key => .inr ⟨e, known, .readOne key⟩
  | readMany => exact failsOr_entity name fun e known => .inr ⟨e, known, .readMany _⟩
  | create =>
      refine failsOr_entity name fun e known => ?_
      exact failsOr_inputArgument fun input => .inr ⟨e, known, .create input⟩
  | update =>
      refine failsOr_entity name fun e known => failsOr_primaryField fun _ => ?_
      refine failsOr_requiredArgument fun key => ?_
      exact failsOr_inputArgument fun input => .inr ⟨e, known, .update key input⟩
  | delete =>
      refine failsOr_entity name fun e known => failsOr_primaryField fun _ => ?_
      exact failsOr_requiredArgument fun key => .inr ⟨e, known, .delete key⟩

end OneCall

section Kept

variable {r : Registry} {x : Executor MemoryStore} {request : Request} {s : MemoryStore}
  {kind : OperationKind} {name : String}

theorem keeps_same {result : Except RequestError Json} {events : List Event}
    (h : ∀ v, result = .ok v → v ≠ .bool false → (∃ e ∈ events, e.isCall = true) →
      Table.Effect kind (s.table name) (s.table name)) : Keeps kind name s ⟨result, s, events⟩ :=
  ⟨fun _ _ _ => rfl, fun _ _ => rfl, fun _ _ _ => rfl, fun _ _ => rfl, h⟩

theorem keeps_failure (fault : RequestError) (events : List Event) :
    Keeps kind name s ⟨.error fault, s, events⟩ :=
  keeps_same nofun

/-- Asking a hook first is nothing to the store. -/
theorem Keeps.after_hook {o : Outcome MemoryStore Json} (h : Keeps kind name s o)
    (hook : String) : Keeps kind name s { o with events := [.hook hook request] ++ o.events } where
  failed := h.failed
  read := h.read
  absent := h.absent
  others := h.others
  effect v done value called := by
    refine h.effect v done value ?_
    obtain ⟨e, he, call⟩ := called
    cases he with
    | head => cases call
    | tail _ he => exact ⟨e, he, call⟩

theorem performs_select (backed : x.storage = MemoryStore.stepwise r) (request : Request)
    (e : Entity) (scope : KeyScope) :
    ∃ result events, (x.select e scope request).Performs s ⟨result, s, events⟩ := by
  let plan := x.plan e request
  let call := fun s => (MemoryStore.select r s e.name scope plan).map fun rows => (rows, s)
  unfold Executor.select
  rw [backed, MemoryStore.stepwise_eq_storage]
  cases selected : MemoryStore.select r s e.name scope plan with
  | error fault =>
      have failed : call s = .error fault := by simp only [call, selected]; rfl
      exact ⟨_, _, MemoryStore.performs_action_error _ call failed⟩
  | ok rows =>
      have done : call s = .ok (rows, s) := by simp only [call, selected]; rfl
      exact ⟨_, _, MemoryStore.performs_action _ call done⟩

/-- The call of an operation writes the table of its entity, if it writes at all. -/
theorem keeps_oneCall (backed : x.storage = MemoryStore.stepwise r) {e : Entity}
    {m : Exec MemoryStore Json} (h : x.OneCall request e kind m) :
    ∃ o, m.Performs s o ∧ Keeps kind e.name s o := by
  cases h with
  | readOne key =>
      obtain ⟨result, events, selects⟩ := performs_select backed request (s := s) e (.one key)
      cases result with
      | error fault => exact ⟨_, selects.bind_error _, keeps_failure fault events⟩
      | ok rows =>
          cases rows with
          | nil => exact ⟨_, selects.bind (performs_throw _ s), keeps_failure _ _⟩
          | cons row rest =>
              exact ⟨_, selects.bind (performs_pure row s), keeps_same fun _ _ _ _ => .readOne _⟩
  | readMany scope =>
      obtain ⟨result, events, selects⟩ := performs_select backed request (s := s) e scope
      cases result with
      | error fault => exact ⟨_, selects.bind_error _, keeps_failure fault events⟩
      | ok rows =>
          exact ⟨_, selects.bind (performs_pure _ s), keeps_same fun _ _ _ _ => .readMany _⟩
  | create input =>
      rw [backed, MemoryStore.stepwise_eq_storage]
      let call := fun s => MemoryStore.insert r s e.name input
      cases done : call s with
      | error fault =>
          exact ⟨_, MemoryStore.performs_action_error _ call done, keeps_failure fault _⟩
      | ok stored =>
          obtain ⟨v, after⟩ := stored
          obtain ⟨others, effect⟩ := MemoryStore.insert_effect done
          refine ⟨_, MemoryStore.performs_action _ call done, nofun, nofun, nofun, others, ?_⟩
          exact fun _ _ _ _ => effect
  | update key input =>
      rw [backed, MemoryStore.stepwise_eq_storage]
      let call := fun s => MemoryStore.patch r s e.name key input
      cases done : call s with
      | error fault =>
          refine ⟨_, (MemoryStore.performs_action_error _ call done).bind_error _, ?_⟩
          exact keeps_failure fault _
      | ok patched =>
          obtain ⟨found, after⟩ := patched
          obtain ⟨others, unmatched, effect⟩ := MemoryStore.patch_effect done
          have performs := MemoryStore.performs_action (.patch e.name key input) call done
          cases found with
          | none =>
              rw [unmatched rfl] at performs
              exact ⟨_, performs.bind (performs_throw _ s), keeps_failure _ _⟩
          | some row =>
              refine ⟨_, performs.bind (performs_pure row after), nofun, nofun, nofun, others, ?_⟩
              exact fun _ _ _ _ => effect row rfl
  | delete key =>
      rw [backed, MemoryStore.stepwise_eq_storage]
      let call := fun s => MemoryStore.delete r s e.name key
      cases done : call s with
      | error fault =>
          refine ⟨_, (MemoryStore.performs_action_error _ call done).bind_error _, ?_⟩
          exact keeps_failure fault _
      | ok deleted =>
          obtain ⟨removed, after⟩ := deleted
          obtain ⟨others, unmatched, effect⟩ := MemoryStore.delete_effect done
          have performs := MemoryStore.performs_action (.delete e.name key) call done
          refine ⟨_, performs.bind (performs_pure (Json.bool (0 < removed)) after), nofun, nofun,
            ?_, others, ?_⟩
          · intro _ absent
            refine unmatched ?_
            have absent : decide (0 < removed) = false := by
              simpa using Except.ok.inj absent
            simpa using absent
          · intro v answered present _
            cases answered
            refine effect (Nat.pos_of_ne_zero ?_)
            rintro rfl
            exact present rfl

end Kept

/-- An operation that fails, reads, or finds nothing to delete leaves all tables as they were, and
one that succeeds changes that of its own entity. The calls of the store write step by step, so
nothing is undone here: what fails has not written. -/
theorem resolve_keeps {r : Registry} {x : Executor MemoryStore}
    (backed : x.storage = MemoryStore.stepwise r) {entities : List Entity}
    (accepted : Registry.ofList entities = .ok x.registry) {request : Request}
    {op : DefaultOperation}
    (behind : x.resolvers.get? request.typeName request.field = some (.standard op))
    (s : MemoryStore) :
    ∃ o, (x.resolve request).Performs s o ∧ Keeps op.kind op.entity s o := by
  have bare : ∃ o, (x.dispatch (.standard op.bare) request).Performs s o ∧
      Keeps op.kind op.entity s o := by
    obtain ⟨fault, failed⟩ | ⟨e, known, call⟩ := x.dispatch_bare_cases request op
    · rw [failed]
      exact ⟨_, performs_throw fault s, keeps_failure fault []⟩
    · rw [← (Registry.mem_of_get? accepted known).2]
      exact keeps_oneCall backed call
  rw [resolve, behind]
  dsimp only
  cases hooked : op.hook with
  | none =>
      have same : op.bare = op := by rw [DefaultOperation.bare, ← hooked]
      exact same ▸ bare
  | some hook =>
      rw [dispatch_eq]
      split
      · exact ⟨_, performs_throw _ s, keeps_failure _ []⟩
      · have asks := performs_runHook op request hook s
        have own : { op with hook := some hook } = op := by rw [← hooked]
        rw [own] at asks
        cases said : (hook.run request).map (·.filter (!·.isNull)) with
        | error fault =>
            rw [said] at asks
            exact ⟨_, asks.bind_error _, keeps_failure fault _⟩
        | ok answer =>
            rw [said] at asks
            cases answer with
            | none =>
                obtain ⟨o, performs, keeps⟩ := bare
                exact ⟨_, asks.bind performs, keeps.after_hook hook.name⟩
            | some v =>
                refine ⟨_, asks.bind (performs_pure v s), keeps_same ?_⟩
                intro _ _ _ called
                obtain ⟨e, he, call⟩ := called
                rw [List.mem_singleton.mp he] at call
                cases call

end Executor

namespace Catalog

/-- The key of the course is taken. -/
def repeatCourse : Request where
  typeName := "Mutation"
  field := "createCourse"
  arguments := [("course", .object [("id", .ofInt 1), ("name", .string "Go")])]

theorem resolve_repeatCourse :
    (blueprint.executor {}).storage = MemoryStore.stepwise registry ∧
    Registry.ofList [category, course] = .ok (blueprint.executor {}).registry ∧
    (blueprint.executor {}).resolvers.get? repeatCourse.typeName repeatCourse.field =
      some (.standard ⟨.create, "Course", none⟩) ∧
    ∃ o, ((blueprint.executor {}).resolve repeatCourse).Performs oneCourse o ∧
      Executor.Keeps .create "Course" oneCourse o := by
  have backed := (MemoryStore.stepwise_eq_storage registry).symm
  have behind : (blueprint.executor {}).resolvers.get? repeatCourse.typeName repeatCourse.field =
      some (.standard ⟨.create, "Course", none⟩) := by
    have registered : course ∈ blueprint.registry.toList := by decide +kernel
    have offered : OperationKind.create ∈ blueprint.offered .mutation course := by decide +kernel
    exact Blueprint.resolver_of_offered (Blueprint.nodup_names_mutation blueprint_accepted)
      registered offered
  exact ⟨backed, accepted, behind, Executor.resolve_keeps backed accepted behind oneCourse⟩

end Catalog
end EntityGraph
