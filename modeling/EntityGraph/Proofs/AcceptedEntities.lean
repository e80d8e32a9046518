import EntityGraph.Proofs.ArgumentNames

/-!
Which entities and options are accepted. The checks are made one after the other and stop at the
first fault; that none of them finds one is a property of the entities, as they are with the added
fields, and of the names that the options give. Every relation field of an accepted entity leads
to a registered target.
-/

namespace EntityGraph

namespace Entity

/-- The fields of the entity and, unless it opted out, those of `extra` that it does not declare,
each in their order. -/
def allFields (e : Entity) (extra : Dict Field) : Dict Field :=
  if e.api.extraProps then
    e.fields ++ extra.filter fun entry => entry.1 ∉ Dict.keys e.fields
  else e.fields

theorem addFields_eq (fields : Dict Field) {extra : Dict Field}
    (distinct : (Dict.keys extra).Nodup) :
    addFields fields extra =
      fields ++ extra.filter fun entry => entry.1 ∉ Dict.keys fields := by
  induction extra generalizing fields with
  | nil => simp [addFields]
  | cons first rest ih =>
      obtain ⟨name, field⟩ := first
      obtain ⟨new, distinct⟩ := List.nodup_cons.mp distinct
      have step : addFields fields ((name, field) :: rest) =
          addFields (if Dict.contains fields name then fields
            else Dict.insert fields name field) rest := rfl
      by_cases declared : name ∈ Dict.keys fields
      · rw [step, if_pos ((Dict.contains_iff_mem_keys _ _).mpr declared), ih _ distinct]
        simp [declared]
      · have others : ∀ entry ∈ rest, entry.1 ∈ Dict.keys (fields ++ [(name, field)]) ↔
            entry.1 ∈ Dict.keys fields := by
          intro entry member
          have apart : entry.1 ≠ name := fun same =>
            new (List.mem_map.mpr ⟨entry, member, same⟩)
          simp [Dict.keys, apart]
        have same : (rest.filter fun entry => entry.1 ∉ Dict.keys (fields ++ [(name, field)])) =
            rest.filter fun entry => entry.1 ∉ Dict.keys fields :=
          List.filter_congr fun entry member => decide_eq_decide.mpr (others entry member).not
        rw [step, if_neg (by rwa [Dict.contains_iff_mem_keys]), Dict.insert_of_not_mem declared,
          ih _ distinct, same, List.filter_cons_of_pos (by simpa using declared),
          List.append_assoc, List.singleton_append]

theorem mergedWith_eq (e : Entity) {extra : Dict Field} (distinct : (Dict.keys extra).Nodup) :
    e.mergedWith extra = { e with fields := e.allFields extra } := by
  unfold mergedWith allFields
  split
  · rw [addFields_eq _ distinct]
  · rfl

theorem allFields_ne_nil (e : Entity) (declared : e.fields ≠ []) (extra : Dict Field) :
    e.allFields extra ≠ [] := by
  unfold allFields
  split
  · exact List.append_ne_nil_of_left_ne_nil declared _
  · exact declared

/-- The entity can be put among entities of the names: its relation fields name relations that it
has, its relations lead to one of the entities, those through another relation go through a direct
one, and its key is not nameless where it is to be written by. -/
structure FitsAmong (e : Entity) (names : List String) : Prop where
  fields : ∀ field name, (field, Field.relation name) ∈ e.fields →
    name.getD field ∈ Dict.keys e.relations
  targets : ∀ entry ∈ e.relations, entry.2.target ∈ names
  links : ∀ entry ∈ e.relations, ∀ via, entry.2.cardinality = .manyThrough via →
    ∃ link, e.relation? via = some link ∧ link.cardinality.isThrough = false
  key : e.api.defaultMutations = true → e.primaryField ≠ some ""

end Entity

namespace Registry

theorem isDirect_iff {e : Entity} {via : String} :
    isDirect e via = true ↔
      ∃ link, e.relation? via = some link ∧ link.cardinality.isThrough = false := by
  unfold isDirect
  cases e.relation? via <;> simp

theorem checkEntity_eq_ok_iff_fitsAmong {known : Dict Entity} {e : Entity} :
    checkEntity known e = .ok () ↔ e.fields ≠ [] ∧ e.FitsAmong (Dict.keys known) := by
  rw [checkEntity_eq_ok_iff, checkFields_eq_ok_iff, checkRelations_eq_ok_iff]
  simp only [isDirect_iff]
  constructor
  · rintro ⟨declared, fields, relations, key⟩
    exact ⟨declared, fields, fun entry h => (relations entry h).1,
      fun entry h => (relations entry h).2, key⟩
  · rintro ⟨declared, fits⟩
    exact ⟨declared, fits.fields,
      fun entry h => ⟨fits.targets entry h, fits.links entry h⟩, fits.key⟩

theorem exists_ofList_iff {entities : List Entity} :
    (∃ r, ofList entities = .ok r) ↔
      (entities.map (·.name)).Nodup ∧
        ∀ e ∈ entities, e.fields ≠ [] ∧ e.FitsAmong (entities.map (·.name)) := by
  have keys : Dict.keys (entities.map fun e => (e.name, e)) = entities.map (·.name) := by
    simp [Dict.keys, Function.comp_def]
  simp only [ofList_eq_ok_iff, checkEntity_eq_ok_iff_fitsAmong]
  constructor
  · rintro ⟨r, listed, distinct, fit⟩
    rw [listed, keys] at fit
    exact ⟨distinct, fit⟩
  · rintro ⟨distinct, fit⟩
    exact ⟨⟨_⟩, rfl, distinct, keys ▸ fit⟩

/-- A relation field resolves through the relation that it names, and this one has a target. -/
theorem exists_target_of_field {entities : List Entity} {r : Registry}
    (accepted : ofList entities = .ok r) {e : Entity} (he : e ∈ r.toList) {field : String}
    {name : Option String} (found : Dict.get? e.fields field = some (.relation name)) :
    ∃ rel target, e.relationForField? field = some (name.getD field, rel) ∧
      r.get? rel.target = some target := by
  have fit := (exists_ofList_iff.mp ⟨r, accepted⟩).2 e (toList_of_accepted accepted ▸ he)
  have named := fit.2.fields field name (Dict.mem_of_get? found)
  rw [← Dict.contains_iff_mem_keys] at named
  obtain ⟨rel, hrel⟩ := Option.isSome_iff_exists.mp named
  obtain ⟨target, htarget⟩ :=
    exists_target accepted ⟨e.name, get?_of_mem_toList accepted he⟩ hrel
  exact ⟨rel, target, by simp [Entity.relationForField?, found, Entity.relation?, hrel], htarget⟩

end Registry

namespace ArgumentProtocol

/-- The suffixes of the enabled operators. -/
def enabledSuffixes (o : QueryOptions) : List String :=
  FilterOp.all.filterMap fun op => nameOf (o.setting op.optionKey) op.defaultSuffix

/-- The names of the enabled arguments for ordering and paging. -/
def enabledNames (o : QueryOptions) : List String :=
  PagingArg.all.filterMap fun arg => nameOf (o.setting arg.defaultName) arg.defaultName

theorem exists_collect_iff {α : Type} {name : α → Option String} {items : List α} :
    (∃ named, collect name [] items = .ok named) ↔
      (items.filterMap name).Nodup ∧ "" ∉ items.filterMap name := by
  have names : (items.filterMap fun x => (name x).map (Prod.mk x)).map (·.2) =
      items.filterMap name := by
    simp [List.map_filterMap, Function.comp_def]
  simp only [collect_nil_eq_ok_iff]
  constructor
  · rintro ⟨_, rfl, distinct, nonempty⟩
    exact ⟨names ▸ distinct, nonempty⟩
  · rintro ⟨distinct, nonempty⟩
    exact ⟨_, rfl, names.symm ▸ distinct, nonempty⟩

theorem exists_ofOptions_iff {o : QueryOptions} :
    (∃ p, ofOptions o = .ok p) ↔
      ((enabledSuffixes o).Nodup ∧ "" ∉ enabledSuffixes o) ∧
        (enabledNames o).Nodup ∧ "" ∉ enabledNames o := by
  rw [enabledSuffixes, enabledNames, ← exists_collect_iff, ← exists_collect_iff]
  simp only [ofOptions_eq_ok_iff]
  constructor
  · rintro ⟨p, operatorsNamed, pagingNamed⟩
    exact ⟨⟨_, operatorsNamed⟩, _, pagingNamed⟩
  · rintro ⟨⟨operators, operatorsNamed⟩, paging, pagingNamed⟩
    exact ⟨⟨operators, paging⟩, operatorsNamed, pagingNamed⟩

end ArgumentProtocol

namespace Blueprint

open ArgumentProtocol

/-- Entities and options that fit together: each entity declares a field of its own and has a name
of its own, with the added fields it can be put among the others, and the names of arguments that
the options enable are not empty and not used twice. -/
structure Acceptable (entities : List Entity) (o : Options) : Prop where
  declared : ∀ e ∈ entities, e.fields ≠ []
  names : (entities.map (·.name)).Nodup
  fit : ∀ e ∈ entities, Entity.FitsAmong { e with fields := e.allFields o.extendProps }
    (entities.map (·.name))
  suffixes : (enabledSuffixes o.queryOptions).Nodup ∧ "" ∉ enabledSuffixes o.queryOptions
  paging : (enabledNames o.queryOptions).Nodup ∧ "" ∉ enabledNames o.queryOptions

variable {entities : List Entity} {o : Options} {b : Blueprint}

theorem exists_ofEntities_iff :
    (∃ b, ofEntities entities o = .ok b) ↔
      (∀ e ∈ entities, e.fields ≠ []) ∧
        (∃ r, Registry.ofList (entities.map (·.mergedWith o.extendProps)) = .ok r) ∧
          ∃ p, ArgumentProtocol.ofOptions o.queryOptions = .ok p := by
  simp only [ofEntities_eq_ok_iff]
  constructor
  · rintro ⟨b, declared, registered, named, _⟩
    exact ⟨declared, ⟨_, registered⟩, _, named⟩
  · rintro ⟨declared, ⟨r, registered⟩, p, named⟩
    exact ⟨⟨r, p, o⟩, declared, registered, named, rfl⟩

/-- Entities and options are accepted exactly when they fit together. The registry then lists the
entities with the added fields in the order in which they were given, and each relation field
leads through the relation that it names to a registered target. -/
theorem ofEntities_accepts_iff (extra : (Dict.keys o.extendProps).Nodup) :
    ((∃ b, ofEntities entities o = .ok b) ↔ Acceptable entities o) ∧
    ∀ b, ofEntities entities o = .ok b →
      b.registry.toList = entities.map (fun e => { e with fields := e.allFields o.extendProps }) ∧
      ∀ e ∈ b.registry.toList, ∀ field name, Dict.get? e.fields field = some (.relation name) →
        ∃ rel target, e.relationForField? field = some (name.getD field, rel) ∧
          b.registry.get? rel.target = some target := by
  have merged : entities.map (·.mergedWith o.extendProps) =
      entities.map fun e => { e with fields := e.allFields o.extendProps } :=
    List.map_congr_left fun e _ => e.mergedWith_eq extra
  refine ⟨?_, ?_⟩
  · rw [exists_ofEntities_iff, merged, Registry.exists_ofList_iff, exists_ofOptions_iff]
    simp only [List.map_map, Function.comp_def, List.forall_mem_map]
    constructor
    · rintro ⟨declared, ⟨names, fit⟩, suffixes, paging⟩
      exact ⟨declared, names, fun e he => (fit e he).2, suffixes, paging⟩
    · rintro ⟨declared, names, fit, suffixes, paging⟩
      exact ⟨declared, ⟨names, fun e he => ⟨e.allFields_ne_nil (declared e he) _, fit e he⟩⟩,
        suffixes, paging⟩
  · intro b accepted
    have registered := (ofEntities_ok accepted).1
    rw [merged] at registered
    exact ⟨Registry.toList_of_accepted registered,
      fun e he field name found => Registry.exists_target_of_field registered he found⟩

end Blueprint

namespace Catalog

/-- Settings are given no fields. -/
def setting : Entity where
  name := "Setting"
  table := none
  fields := [("id", .scalar ⟨"integer"⟩)]
  relations := []
  api := { extraProps := false }

/-- A field that no entity has and one that categories have. -/
def stamps : Options :=
  { extendProps := [("createdAt", .scalar ⟨"string"⟩), ("name", .scalar ⟨"integer"⟩)] }

def stamped (e : Entity) : Entity :=
  { e with fields := e.fields ++ [("createdAt", .scalar ⟨"string"⟩)] }

def stampedBlueprint : Blueprint where
  registry := ⟨[("Category", stamped category), ("Course", stamped course), ("Setting", setting)]⟩
  protocol := .standard
  options := stamps

/-- A relation field cannot be added to entities without the relation. -/
theorem accepts_stamped :
    (Dict.keys stamps.extendProps).Nodup ∧
    Blueprint.ofEntities [category, course, setting] stamps = .ok stampedBlueprint ∧
    Blueprint.Acceptable [category, course, setting] stamps ∧
    stampedBlueprint.registry.toList = [stamped category, stamped course, setting] ∧
    ¬ ∃ b, Blueprint.ofEntities [category, course]
      { extendProps := [("courses", .relation none)] } = .ok b := by
  have extra : (Dict.keys stamps.extendProps).Nodup := by decide
  have accepted : Blueprint.ofEntities [category, course, setting] stamps =
      .ok stampedBlueprint := rfl
  obtain ⟨fits, lists⟩ := Blueprint.ofEntities_accepts_iff extra
  refine ⟨extra, accepted, fits.mp ⟨_, accepted⟩, (lists _ accepted).1, ?_⟩
  rw [(Blueprint.ofEntities_accepts_iff (by decide)).1]
  intro acceptable
  have named := (acceptable.fit category List.mem_cons_self).fields "courses" none (by decide)
  exact absurd named (by decide)

end Catalog
end EntityGraph
