import EntityGraph.Proofs.Dict
import EntityGraph.Entity.Registry

/-!
What an accepted registry promises: every relation of a registered entity leads to a registered
target, and a relation through another goes through a direct one.
-/

namespace EntityGraph

theorem Except.bind_eq_ok {ε α β : Type} {x : Except ε α} {f : α → Except ε β} {b : β} :
    x >>= f = .ok b ↔ ∃ a, x = .ok a ∧ f a = .ok b := by
  cases x <;> simp [bind, Except.bind]

theorem Except.seq_eq_ok {ε β : Type} {x : Except ε Unit} {f : Unit → Except ε β} {b : β} :
    x >>= f = .ok b ↔ x = .ok () ∧ f () = .ok b := by
  rw [Except.bind_eq_ok]
  exact ⟨fun ⟨(), hx, hf⟩ => ⟨hx, hf⟩, fun ⟨hx, hf⟩ => ⟨(), hx, hf⟩⟩

theorem Except.guard_eq_ok {ε : Type} {fault : ε} {p : Prop} [Decidable p] :
    (if p then throw fault else pure () : Except ε Unit) = .ok () ↔ ¬ p := by
  by_cases h : p
  · simp [h, throw, throwThe, MonadExceptOf.throw]
  · simp [h, pure, Except.pure]

namespace Entity

/-- The fields are a dictionary, so no scalar is named twice. -/
theorem nodup_scalarNames {e : Entity} (distinct : (Dict.keys e.fields).Nodup) :
    e.scalarNames.Nodup := by
  refine List.pairwise_map.mpr (List.Pairwise.filterMap _ ?_ (List.pairwise_map.mp distinct))
  intro a b different s hs t ht
  obtain ⟨name, field⟩ := a
  obtain ⟨name', field'⟩ := b
  cases field <;> cases hs
  cases field' <;> cases ht
  exact different

theorem hasScalar_of_mem_scalarNames {e : Entity} (distinct : (Dict.keys e.fields).Nodup)
    {name : String} (h : name ∈ e.scalarNames) : e.hasScalar name = true := by
  obtain ⟨⟨own, type⟩, scalar, rfl⟩ := List.mem_map.mp h
  obtain ⟨⟨field, kind⟩, member, found⟩ := List.mem_filterMap.mp scalar
  cases kind <;> cases found
  simp [hasScalar, scalarType?, Dict.get?_of_mem distinct member]

theorem mem_scalarNames_of_hasScalar {e : Entity} {name : String} (h : e.hasScalar name = true) :
    name ∈ e.scalarNames := by
  unfold hasScalar scalarType? at h
  split at h
  · rename_i type found
    exact List.mem_map.mpr ⟨(name, type), List.mem_filterMap.mpr
      ⟨_, Dict.mem_of_get? found, rfl⟩, rfl⟩
  · cases h

theorem nodup_keys_mergedWith {e : Entity} (distinct : (Dict.keys e.fields).Nodup)
    (extra : Dict Field) : (Dict.keys (e.mergedWith extra).fields).Nodup := by
  have added : ∀ fields : Dict Field, (Dict.keys fields).Nodup →
      (Dict.keys (addFields fields extra)).Nodup := by
    intro fields h
    unfold addFields
    induction extra generalizing fields with
    | nil => exact h
    | cons entry rest ih =>
        refine ih _ ?_
        dsimp only
        split
        · exact h
        · exact Dict.nodup_keys_insert h _ _
  unfold mergedWith
  split
  · exact added e.fields distinct
  · exact distinct

end Entity

namespace Registry

/-- The entity is registered under some name. -/
def Has (r : Registry) (e : Entity) : Prop := ∃ name, r.get? name = some e

theorem collect_eq_ok_iff {entities : List Entity} {done known : Dict Entity} :
    collect done entities = .ok known ↔
      known = done ++ entities.map (fun e => (e.name, e)) ∧ (entities.map (·.name)).Nodup ∧
        ∀ e ∈ entities, e.name ∉ Dict.keys done := by
  induction entities generalizing done with
  | nil => simp [collect, eq_comm]
  | cons first rest ih =>
      rw [collect]
      by_cases present : first.name ∈ Dict.keys done
      · simp [(Dict.contains_iff_mem_keys done first.name).mpr present, present]
      · have fresh : ¬ Dict.contains done first.name = true := by
          rwa [Dict.contains_iff_mem_keys]
        have later : (∀ e ∈ rest, e.name ∉ Dict.keys (done ++ [(first.name, first)])) ↔
            first.name ∉ rest.map (·.name) ∧ ∀ e ∈ rest, e.name ∉ Dict.keys done := by
          simp only [Dict.keys, List.map_append, List.map_cons, List.map_nil, List.mem_append,
            List.mem_singleton, List.mem_map, not_or, not_exists, not_and]
          exact ⟨fun h => ⟨fun e he => (h e he).2, fun e he => (h e he).1⟩,
            fun h e he => ⟨h.2 e he, h.1 e he⟩⟩
        rw [if_neg fresh, ih, Dict.insert_of_not_mem present, later]
        simp only [List.append_assoc, List.singleton_append, List.map_cons, List.nodup_cons,
          List.forall_mem_cons]
        constructor
        · rintro ⟨same, distinct, new, others⟩
          exact ⟨same, ⟨new, distinct⟩, present, others⟩
        · rintro ⟨same, ⟨new, distinct⟩, _, others⟩
          exact ⟨same, distinct, new, others⟩

/-- Each relation field names a relation of the entity. -/
theorem checkFields_eq_ok_iff {e : Entity} {fields : List (String × Field)} :
    checkFields e fields = .ok () ↔
      ∀ field name, (field, Field.relation name) ∈ fields →
        name.getD field ∈ Dict.keys e.relations := by
  induction fields with
  | nil => simp [checkFields]
  | cons first rest ih =>
      obtain ⟨field, kind⟩ := first
      cases kind with
      | scalar type => simp [checkFields, ih]
      | relation name =>
          rw [checkFields]
          by_cases named : name.getD field ∈ Dict.keys e.relations
          · rw [if_pos ((Dict.contains_iff_mem_keys _ _).mpr named), ih]
            constructor
            · intro below other own member
              obtain same | member := List.mem_cons.mp member
              · cases same
                exact named
              · exact below other own member
            · exact fun all other own member => all other own (List.mem_cons_of_mem _ member)
          · rw [if_neg (by rwa [Dict.contains_iff_mem_keys])]
            exact ⟨nofun, fun all => absurd (all field name List.mem_cons_self) named⟩

/-- Each relation has a target, and goes through a direct one if it goes through any. -/
theorem checkRelations_eq_ok_iff {known : Dict Entity} {e : Entity}
    {relations : List (String × Relation)} :
    checkRelations known e relations = .ok () ↔
      ∀ entry ∈ relations, entry.2.target ∈ Dict.keys known ∧
        ∀ via, entry.2.cardinality = .manyThrough via → isDirect e via = true := by
  induction relations with
  | nil => simp [checkRelations]
  | cons first rest ih =>
      obtain ⟨name, rel⟩ := first
      rw [checkRelations, List.forall_mem_cons, ← ih, ← Dict.contains_iff_mem_keys]
      cases Dict.contains known rel.target with
      | false => simp
      | true =>
          cases rel.cardinality with
          | one | many => simp
          | manyThrough via => by_cases direct : isDirect e via = true <;> simp [direct]

theorem checkEntity_eq_ok_iff {known : Dict Entity} {e : Entity} :
    checkEntity known e = .ok () ↔
      e.fields ≠ [] ∧ checkFields e e.fields = .ok () ∧
        checkRelations known e e.relations = .ok () ∧
          (e.api.defaultMutations = true → e.primaryField ≠ some "") := by
  dsimp only [checkEntity]
  by_cases empty : e.fields = []
  · rw [if_pos (by simp [empty])]
    exact ⟨nofun, fun h => absurd empty h.1⟩
  · rw [if_neg (by simpa using empty), Except.seq_eq_ok, Except.seq_eq_ok]
    refine (and_congr_right fun _ => and_congr_right fun _ => ?_).trans
      (and_iff_right empty).symm
    rw [Except.guard_eq_ok]
    simp

theorem checkAll_eq_ok_iff {known : Dict Entity} {entities : List Entity} :
    checkAll known entities = .ok () ↔ ∀ e ∈ entities, checkEntity known e = .ok () := by
  induction entities with
  | nil => simp [checkAll]
  | cons first rest ih =>
      rw [checkAll, Except.seq_eq_ok, ih, List.forall_mem_cons]

/-- What is accepted is listed in its order, under names that are different, and each entity passes
the check against all of them. -/
theorem ofList_eq_ok_iff {entities : List Entity} {r : Registry} :
    ofList entities = .ok r ↔
      r.entities = entities.map (fun e => (e.name, e)) ∧ (entities.map (·.name)).Nodup ∧
        ∀ e ∈ entities, checkEntity r.entities e = .ok () := by
  have values : ∀ entities : List Entity,
      (entities.map fun e => (e.name, e)).map (·.2) = entities := by
    intro entities
    simp [Function.comp_def]
  rw [ofList, Except.bind_eq_ok]
  simp only [Except.seq_eq_ok, checkAll_eq_ok_iff, collect_eq_ok_iff, List.nil_append]
  constructor
  · rintro ⟨known, ⟨rfl, distinct, _⟩, checked, made⟩
    cases made
    exact ⟨rfl, distinct, by simpa only [values] using checked⟩
  · rintro ⟨listed, distinct, checked⟩
    refine ⟨_, ⟨rfl, distinct, nofun⟩, ?_, ?_⟩
    · rw [values, ← listed]
      exact checked
    · rw [← listed]
      rfl

variable {entities : List Entity} {r : Registry} {e : Entity} {name : String} {rel : Relation}

/-- What is given is listed, in its order. -/
theorem toList_of_accepted (accepted : ofList entities = .ok r) : r.toList = entities := by
  obtain ⟨listed, _⟩ := ofList_eq_ok_iff.mp accepted
  simp [toList, listed, Function.comp_def]

theorem nodup_keys (accepted : ofList entities = .ok r) : (Dict.keys r.entities).Nodup := by
  obtain ⟨listed, distinct, _⟩ := ofList_eq_ok_iff.mp accepted
  simpa [Dict.keys, listed, Function.comp_def] using distinct

/-- What is registered was given, and under its own name. -/
theorem mem_of_get? (accepted : ofList entities = .ok r) (h : r.get? name = some e) :
    e ∈ entities ∧ e.name = name := by
  have member := Dict.mem_of_get? h
  rw [(ofList_eq_ok_iff.mp accepted).1] at member
  obtain ⟨own, given, same⟩ := List.mem_map.mp member
  cases same
  exact ⟨given, rfl⟩

private theorem accepted_relation (accepted : ofList entities = .ok r) (has : r.Has e)
    (h : e.relation? name = some rel) : rel.target ∈ Dict.keys r.entities ∧
      ∀ via, rel.cardinality = .manyThrough via → isDirect e via = true := by
  obtain ⟨_, found⟩ := has
  have checked := (ofList_eq_ok_iff.mp accepted).2.2 e (mem_of_get? accepted found).1
  have relations := (checkEntity_eq_ok_iff.mp checked).2.2.1
  exact checkRelations_eq_ok_iff.mp relations _ (Dict.mem_of_get? h)

/-- What is listed is found under its own name. -/
theorem get?_of_mem_toList (accepted : ofList entities = .ok r) (h : e ∈ r.toList) :
    r.get? e.name = some e := by
  obtain ⟨⟨key, _⟩, member, rfl⟩ := List.mem_map.mp h
  have found := Dict.get?_of_mem (nodup_keys accepted) member
  obtain rfl := (mem_of_get? accepted found).2
  exact found

theorem mem_toList_of_has (has : r.Has e) : e ∈ r.toList := by
  obtain ⟨key, found⟩ := has
  exact List.mem_map.mpr ⟨(key, e), Dict.mem_of_get? found, rfl⟩

/-- No two entities of a registry have one name. -/
theorem nodup_names (accepted : ofList entities = .ok r) : (r.toList.map (·.name)).Nodup := by
  have same : r.toList.map (·.name) = Dict.keys r.entities := by
    rw [toList, List.map_map, Dict.keys]
    refine List.map_congr_left ?_
    intro entry member
    exact (mem_of_get? accepted (Dict.get?_of_mem (nodup_keys accepted) member)).2
  exact same ▸ nodup_keys accepted

theorem exists_target (accepted : ofList entities = .ok r) (has : r.Has e)
    (h : e.relation? name = some rel) : ∃ target, r.get? rel.target = some target := by
  have known := (accepted_relation accepted has h).1
  exact Option.isSome_iff_exists.mp ((Dict.contains_iff_mem_keys _ _).mpr known)

theorem exists_direct_via (accepted : ofList entities = .ok r) (has : r.Has e)
    (h : e.relation? name = some rel) {via : String}
    (through : rel.cardinality = .manyThrough via) :
    ∃ link, e.relation? via = some link ∧ link.cardinality.isThrough = false := by
  have direct := (accepted_relation accepted has h).2 via through
  unfold isDirect at direct
  split at direct
  · rename_i link hlink
    exact ⟨link, hlink, by simpa using direct⟩
  · simp at direct

end Registry

/-! A registry with one direct relation. -/

namespace Catalog

def category : Entity where
  name := "Category"
  table := none
  fields := [("id", .scalar ⟨"integer"⟩), ("name", .scalar ⟨"string"⟩)]
  relations := []
  api := {}

def course : Entity where
  name := "Course"
  table := none
  fields := [("id", .scalar ⟨"integer"⟩), ("name", .scalar ⟨"string"⟩),
    ("categoryId", .scalar ⟨"integer"⟩), ("category", .relation none)]
  relations := [("category", ⟨.one, "Category", ⟨"categoryId", "id"⟩, true, none⟩)]
  api := {}

def registry : Registry := ⟨[("Category", category), ("Course", course)]⟩

theorem accepted : Registry.ofList [category, course] = .ok registry := rfl

end Catalog
end EntityGraph
