import EntityGraph.Resolver.Executor

/-!
Hooks are transparent or decisive. An operation with a hook either does what the hook says and
leaves the store alone, or does what it does without one, after the hook has been asked. Only reads
look at the request before they ask, and what they refuse then they refuse without a hook as well.
-/

namespace EntityGraph

/-- The events that are calls of the store. -/
def Event.isCall : Event → Bool
  | .select .. | .insert .. | .patch .. | .delete .. => true
  | .hook .. | .custom .. => false

namespace Exec

/-- How an action ends, and what happens on the way. -/
structure Outcome (σ α : Type) where
  result : Except RequestError α
  store : σ
  events : List Event := []

variable {σ α β : Type}

/-- Begun on the store `s`, the action has the outcome, whatever has happened before. -/
def Performs (m : Exec σ α) (s : σ) (o : Outcome σ α) : Prop :=
  ∀ before, m ⟨s, before⟩ = (o.result, ⟨o.store, before ++ o.events⟩)

theorem performs_pure (v : α) (s : σ) : (pure v : Exec σ α).Performs s ⟨.ok v, s, []⟩ := by
  intro before
  rw [List.append_nil]
  rfl

theorem performs_throw (e : RequestError) (s : σ) :
    (throw e : Exec σ α).Performs s ⟨.error e, s, []⟩ := by
  intro before
  rw [List.append_nil]
  rfl

theorem performs_record (e : Event) (s : σ) : (record e).Performs s ⟨.ok (), s, [e]⟩ :=
  fun _ => rfl

theorem performs_onStore (e : Event) (action : ExceptT RequestError (StateM σ) α) (s : σ) :
    (onStore e action).Performs s ⟨(action.run.run s).1, (action.run.run s).2, [e]⟩ :=
  fun _ => rfl

theorem performs_fromResult (r : Except RequestError α) (s : σ) :
    (fromResult r : Exec σ α).Performs s ⟨r, s, []⟩ := by
  intro before
  rw [List.append_nil]
  rfl

/-- What follows begins where the first action ends. -/
theorem Performs.bind {m : Exec σ α} {f : α → Exec σ β} {s : σ} {v : α} {s' : σ}
    {first : List Event} {o : Outcome σ β} (hm : m.Performs s ⟨.ok v, s', first⟩)
    (hf : (f v).Performs s' o) :
    (m >>= f).Performs s { o with events := first ++ o.events } := by
  intro before
  have step : (m >>= f) ⟨s, before⟩ = f v ⟨s', before ++ first⟩ := by
    change ExceptT.bindCont f (m ⟨s, before⟩).1 (m ⟨s, before⟩).2 = _
    rw [hm before]
    rfl
  rw [step, hf, List.append_assoc]

/-- After a failure nothing follows. -/
theorem Performs.bind_error {m : Exec σ α} {s : σ} {e : RequestError} {s' : σ}
    {first : List Event} (hm : m.Performs s ⟨.error e, s', first⟩) (f : α → Exec σ β) :
    (m >>= f).Performs s ⟨.error e, s', first⟩ := by
  intro before
  change ExceptT.bindCont f (m ⟨s, before⟩).1 (m ⟨s, before⟩).2 = _
  rw [hm before]
  rfl

/-- The action calls the store at most `n` times, and nothing else happens. -/
def CallsAtMost (n : Nat) (m : Exec σ α) : Prop :=
  ∀ s, ∃ o, m.Performs s o ∧ o.events.length ≤ n ∧ ∀ e ∈ o.events, e.isCall = true

theorem callsAtMost_pure (v : α) : (pure v : Exec σ α).CallsAtMost 0 :=
  fun s => ⟨_, performs_pure v s, Nat.le_refl 0, nofun⟩

theorem callsAtMost_throw (e : RequestError) : (throw e : Exec σ α).CallsAtMost 0 :=
  fun s => ⟨_, performs_throw e s, Nat.le_refl 0, nofun⟩

theorem callsAtMost_onStore {e : Event} (call : e.isCall = true)
    (action : ExceptT RequestError (StateM σ) α) : (onStore e action).CallsAtMost 1 := by
  refine fun s => ⟨_, performs_onStore e action s, Nat.le_refl 1, ?_⟩
  intro other h
  rwa [List.mem_singleton.mp h]

theorem CallsAtMost.bind {m : Exec σ α} {f : α → Exec σ β} {i j : Nat} (hm : m.CallsAtMost i)
    (hf : ∀ v, (f v).CallsAtMost j) : (m >>= f).CallsAtMost (i + j) := by
  intro s
  obtain ⟨⟨result, s', first⟩, performs, bound, calls⟩ := hm s
  cases result with
  | error e => exact ⟨_, performs.bind_error f, Nat.le_trans bound (Nat.le_add_right i j), calls⟩
  | ok v =>
      obtain ⟨o, next, boundNext, callsNext⟩ := hf v s'
      refine ⟨_, performs.bind next, ?_, ?_⟩
      · rw [List.length_append]
        exact Nat.add_le_add bound boundNext
      · intro e h
        exact (List.mem_append.mp h).elim (calls e) (callsNext e)

end Exec

/-- The operation without a hook. -/
def DefaultOperation.bare (op : DefaultOperation) : DefaultOperation := { op with hook := none }

namespace Executor

open Exec

variable {σ : Type} (x : Executor σ) (op : DefaultOperation) (request : Request)

/-- Why the operation is refused before its hook is asked. A read is for an entity, and a read of
one row for a key; writes ask first. -/
def refusal? : Option RequestError :=
  match op.kind, x.registry.get? op.entity with
  | .readOne, none | .readMany, none => some (.unknownEntity op.entity)
  | .readOne, some e =>
      match e.primaryField with
      | none => some (.invalidArgument e.name "entity has no primary field")
      | some primary =>
          if (Json.field request.arguments primary).isNull then
            some (.invalidArgument primary "required")
          else none
  | _, _ => none

theorem entity_of_known {name : String} {e : Entity} (h : x.registry.get? name = some e) :
    x.entity name = pure e := by
  rw [entity, h]

theorem entity_of_unknown {name : String} (h : x.registry.get? name = none) :
    x.entity name = throw (.unknownEntity name) := by
  rw [entity, h]

theorem primaryField_of_some {e : Entity} {primary : String} (h : e.primaryField = some primary) :
    (primaryField e : Exec σ String) = pure primary := by
  rw [primaryField, h]

theorem primaryField_of_none {e : Entity} (h : e.primaryField = none) :
    (primaryField e : Exec σ String) =
      throw (.invalidArgument e.name "entity has no primary field") := by
  rw [primaryField, h]

theorem callsAtMost_entity (name : String) : (x.entity name).CallsAtMost 0 := by
  unfold entity
  split
  · exact callsAtMost_pure _
  · exact callsAtMost_throw _

theorem callsAtMost_primaryField (e : Entity) : (primaryField e : Exec σ String).CallsAtMost 0 := by
  unfold primaryField
  split
  · exact callsAtMost_pure _
  · exact callsAtMost_throw _

theorem callsAtMost_requiredArgument (arguments : Row) (name : String) :
    (requiredArgument arguments name : Exec σ Json).CallsAtMost 0 := by
  unfold requiredArgument
  dsimp only
  split
  · exact callsAtMost_throw _
  · exact callsAtMost_pure _

theorem callsAtMost_inputArgument (arguments : Row) (name : String) :
    (inputArgument arguments name : Exec σ Row).CallsAtMost 0 := by
  unfold inputArgument
  split
  · exact callsAtMost_pure _
  · exact callsAtMost_throw _

theorem callsAtMost_select (e : Entity) (scope : KeyScope) :
    (x.select e scope request).CallsAtMost 1 :=
  callsAtMost_onStore rfl _

/-- Finding the entity, its primary field and the key calls nothing. -/
theorem callsAtMost_keyed (name : String) {n : Nat} {f : Entity → String → Json → Exec σ Json}
    (h : ∀ e primary key, (f e primary key).CallsAtMost n) :
    (do
      let e ← x.entity name
      let primary ← primaryField e
      let key ← requiredArgument request.arguments primary
      f e primary key).CallsAtMost n := by
  rw [← Nat.zero_add n]
  refine (x.callsAtMost_entity name).bind fun e => ?_
  rw [← Nat.zero_add n]
  refine (callsAtMost_primaryField e).bind fun primary => ?_
  rw [← Nat.zero_add n]
  exact (callsAtMost_requiredArgument request.arguments primary).bind (h e primary)

/-- Without a hook an operation calls the store once at most. -/
theorem callsAtMost_dispatch_bare : (x.dispatch (.standard op.bare) request).CallsAtMost 1 := by
  obtain ⟨kind, name, hook⟩ := op
  have unasked : ∀ f : Option Json → Exec σ Json, (f none).CallsAtMost 1 →
      (runHook ⟨kind, name, none⟩ request >>= f).CallsAtMost 1 := fun _ h => h
  cases kind with
  | readOne =>
      refine x.callsAtMost_keyed request name fun e primary key => ?_
      refine unasked _ ((x.callsAtMost_select request e (.one key)).bind (j := 0) ?_)
      rintro (_ | ⟨row, rest⟩)
      · exact callsAtMost_throw _
      · exact callsAtMost_pure _
  | readMany =>
      refine (x.callsAtMost_entity name).bind (j := 1) fun e => ?_
      refine unasked _ ((x.callsAtMost_select request e _).bind (j := 0) ?_)
      exact fun rows => callsAtMost_pure _
  | create =>
      refine unasked _ ((x.callsAtMost_entity name).bind (j := 1) fun e => ?_)
      refine (callsAtMost_inputArgument request.arguments e.camelName).bind (j := 1) ?_
      exact fun input => callsAtMost_onStore rfl _
  | update =>
      refine unasked _ (x.callsAtMost_keyed request name fun e primary key => ?_)
      refine (callsAtMost_inputArgument request.arguments e.camelName).bind (j := 1) ?_
      intro input
      refine (callsAtMost_onStore rfl _).bind (j := 0) ?_
      rintro (_ | row)
      · exact callsAtMost_throw _
      · exact callsAtMost_pure _
  | delete =>
      refine unasked _ (x.callsAtMost_keyed request name fun e primary key => ?_)
      refine (callsAtMost_onStore rfl _).bind (j := 0) ?_
      exact fun removed => callsAtMost_pure _

/-- What is not refused asks the hook first, and goes on as without one unless that answers. -/
theorem dispatch_eq :
    x.dispatch (.standard op) request =
      match x.refusal? op request with
      | some fault => throw fault
      | none => runHook op request >>= fun answer =>
          answer.elim (x.dispatch (.standard op.bare) request) pure := by
  have asked : ∀ f : Option Json → Exec σ Json, (∀ v, f (some v) = pure v) →
      (runHook op request >>= f) =
        runHook op request >>= fun answer => answer.elim (f none) pure := by
    intro f present
    congr 1
    funext answer
    cases answer with
    | none => rfl
    | some v => exact present v
  obtain ⟨kind, name, hook⟩ := op
  cases kind with
  | readOne =>
      simp only [refusal?, dispatch, DefaultOperation.bare, readOne]
      cases known : x.registry.get? name with
      | none =>
          rw [entity_of_unknown x known]
          rfl
      | some e =>
          simp only [entity_of_known x known, pure_bind]
          cases keyed : e.primaryField with
          | none =>
              rw [primaryField_of_none keyed]
              rfl
          | some primary =>
              simp only [primaryField_of_some keyed, pure_bind]
              cases missing : (Json.field request.arguments primary).isNull with
              | true =>
                  simp only [requiredArgument, missing]
                  rfl
              | false =>
                  simp only [requiredArgument, missing]
                  exact asked _ fun _ => rfl
  | readMany =>
      simp only [refusal?, dispatch, DefaultOperation.bare, readMany]
      cases known : x.registry.get? name with
      | none =>
          rw [entity_of_unknown x known]
          rfl
      | some e =>
          simp only [entity_of_known x known, pure_bind]
          exact asked _ fun _ => rfl
  | create | update | delete => exact asked _ fun _ => rfl

/-- The hook is asked once, and null says as little as nothing. -/
theorem performs_runHook (hook : Hook) (s : σ) :
    (runHook { op with hook := some hook } request).Performs s
      ⟨(hook.run request).map (·.filter (!·.isNull)), s, [.hook hook.name request]⟩ := by
  simp only [runHook]
  refine (performs_record _ s).bind (o := ⟨_, s, []⟩) ?_
  have answered := performs_fromResult (hook.run request) s
  cases said : hook.run request with
  | error fault =>
      rw [said] at answered
      exact answered.bind_error _
  | ok answer =>
      rw [said] at answered
      refine answered.bind (o := ⟨_, s, []⟩) ?_
      cases answer with
      | none => exact performs_pure none s
      | some v => cases v <;> exact performs_pure _ s

/-- What an operation does with a hook, by what it does without one. What is refused before the
hook is asked fails as it does without a hook, and the store is left alone. Else the hook is asked
once and first: its failure, or a value that it has, is the result, and the store is left alone; if
it has nothing to say, all goes on as without a hook. No operation calls the store twice. -/
theorem dispatch_hook (hook : Hook) (s : σ) :
    ∃ bare : Outcome σ Json,
      (x.dispatch (.standard { op with hook := none }) request).Performs s bare ∧
      bare.events.length ≤ 1 ∧ (∀ e ∈ bare.events, e.isCall = true) ∧
      let hooked := x.dispatch (.standard { op with hook := some hook }) request
      let asked := Event.hook hook.name request
      match x.refusal? op request with
      | some fault => bare = ⟨.error fault, s, []⟩ ∧ hooked.Performs s bare
      | none =>
          match hook.run request with
          | .error fault => hooked.Performs s ⟨.error fault, s, [asked]⟩
          | .ok none | .ok (some .null) =>
              hooked.Performs s { bare with events := asked :: bare.events }
          | .ok (some v) => hooked.Performs s ⟨.ok v, s, [asked]⟩ := by
  have hooked := x.dispatch_eq { op with hook := some hook } request
  have unhooked := x.dispatch_eq op.bare request
  change _ = match x.refusal? op request with | some _ => _ | none => _ at hooked
  change _ = match x.refusal? op request with | some _ => _ | none => _ at unhooked
  cases refused : x.refusal? op request with
  | some fault =>
      rw [refused] at hooked unhooked
      refine ⟨⟨.error fault, s, []⟩, ?_, Nat.zero_le 1, nofun, rfl, ?_⟩
      · exact unhooked ▸ performs_throw fault s
      · exact hooked ▸ performs_throw fault s
  | none =>
      rw [refused] at hooked
      obtain ⟨bare, performs, bound, calls⟩ := x.callsAtMost_dispatch_bare op request s
      refine ⟨bare, performs, bound, calls, ?_⟩
      have asks := performs_runHook op request hook s
      dsimp only
      rw [hooked]
      split
      · rename_i fault failed
        rw [failed] at asks
        exact asks.bind_error _
      · rename_i silent
        rw [silent] at asks
        exact asks.bind performs
      · rename_i silent
        rw [silent] at asks
        exact asks.bind performs
      · rename_i v present said
        have kept : (some v).filter (!·.isNull) = some v := by
          cases v with
          | null => exact absurd rfl present
          | _ => rfl
        rw [said] at asks
        simp only [Except.map, kept] at asks
        refine asks.bind (o := ⟨.ok v, s, []⟩) ?_
        exact performs_pure v s

end Executor
end EntityGraph
