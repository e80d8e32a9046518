import Mathlib.Data.List.Forall2
import EntityGraph.Proofs.Compile
import EntityGraph.Schema.Synthesis

/-!
The object type of an entity against the names that requests use. The lines of the type are written
by walking over the fields, once for scalars and once for relations; a requested name is looked up,
first among the scalars. Both go by one list of offers: the lines are those of the offers in their
order, and a name means the first offer under it.
-/

namespace EntityGraph

namespace Entity

/-- What clients may ask for, with the name they use: a scalar, or an exposed relation to which a
relation field leads, under its alias if it has one. -/
inductive Offers (e : Entity) : String → ApiField → Prop
  | scalar {name : String} {t : ScalarType} :
      (name, Field.scalar t) ∈ e.fields → Offers e name (.scalar t)
  | relation {field : String} {via : Option String} {rel : Relation} :
      (field, Field.relation via) ∈ e.fields → e.relation? (via.getD field) = some rel →
      rel.exposed = true → Offers e (rel.exposedAs.getD field) (.relation (via.getD field) rel)

/-- The offers, scalars before relations. A name may come twice. -/
def offered (e : Entity) : Dict ApiField :=
  e.scalarFields.map (fun field => (field.1, .scalar field.2)) ++
    e.apiRelations.map fun a => (a.apiName, .relation a.name a.relation)

variable {e : Entity}

theorem mem_scalarFields {name : String} {t : ScalarType} :
    (name, t) ∈ e.scalarFields ↔ (name, Field.scalar t) ∈ e.fields := by
  constructor
  · intro h
    obtain ⟨⟨field, kind⟩, member, found⟩ := List.mem_filterMap.mp h
    cases kind <;> cases found
    exact member
  · exact fun h => List.mem_filterMap.mpr ⟨_, h, rfl⟩

theorem relationForField?_eq_some_iff (distinct : (Dict.keys e.fields).Nodup)
    {field name : String} {rel : Relation} :
    e.relationForField? field = some (name, rel) ↔
      ∃ via, (field, Field.relation via) ∈ e.fields ∧ via.getD field = name ∧
        e.relation? name = some rel := by
  unfold relationForField?
  constructor
  · intro h
    split at h
    · rename_i via found
      obtain ⟨own, hown, same⟩ := Option.map_eq_some_iff.mp h
      cases same
      exact ⟨via, Dict.mem_of_get? found, rfl, hown⟩
    · cases h
  · rintro ⟨via, member, rfl, hrel⟩
    rw [Dict.get?_of_mem distinct member]
    exact congrArg (Option.map _) hrel

theorem mem_apiRelations (distinct : (Dict.keys e.fields).Nodup) {apiName name : String}
    {rel : Relation} :
    ⟨apiName, name, rel⟩ ∈ e.apiRelations ↔ rel.exposed = true ∧ ∃ field,
      e.relationForField? field = some (name, rel) ∧ rel.exposedAs.getD field = apiName := by
  constructor
  · intro h
    obtain ⟨field, _, made⟩ := List.mem_filterMap.mp h
    split at made
    · split at made
      · cases made
        exact ⟨by assumption, field, by assumption, rfl⟩
      · cases made
    · cases made
  · rintro ⟨exposed, field, found, rfl⟩
    obtain ⟨via, member, _⟩ := (relationForField?_eq_some_iff distinct).mp found
    refine List.mem_filterMap.mpr ⟨field, List.mem_map_of_mem member, ?_⟩
    rw [found]
    exact if_pos exposed

/-- The list holds what the entity offers, and nothing else. -/
theorem mem_offered (distinct : (Dict.keys e.fields).Nodup) {name : String} {x : ApiField} :
    (name, x) ∈ e.offered ↔ e.Offers name x := by
  rw [offered, List.mem_append, List.mem_map, List.mem_map]
  constructor
  · rintro (⟨⟨own, t⟩, scalar, same⟩ | ⟨⟨apiName, relation, rel⟩, api, same⟩)
    · cases same
      exact .scalar (mem_scalarFields.mp scalar)
    · cases same
      obtain ⟨exposed, field, found, rfl⟩ := (mem_apiRelations distinct).mp api
      obtain ⟨via, member, rfl, hrel⟩ := (relationForField?_eq_some_iff distinct).mp found
      exact .relation member hrel exposed
  · intro h
    cases h with
    | scalar member => exact .inl ⟨(name, _), mem_scalarFields.mpr member, rfl⟩
    | relation member hrel exposed =>
        have found := (relationForField?_eq_some_iff distinct).mpr ⟨_, member, rfl, hrel⟩
        exact .inr ⟨_, (mem_apiRelations distinct).mpr ⟨exposed, _, found, rfl⟩, rfl⟩

theorem get?_scalarFields (distinct : (Dict.keys e.fields).Nodup) (name : String) :
    Dict.get? (e.scalarFields.map fun field => (field.1, ApiField.scalar field.2)) name =
      (e.scalarType? name).map .scalar := by
  have keys : Dict.keys (e.scalarFields.map fun field => (field.1, ApiField.scalar field.2)) =
      e.scalarNames := by
    rw [Dict.keys, scalarNames, List.map_map]
    rfl
  cases found : e.scalarType? name with
  | none =>
      rw [Option.map_none, Dict.get?_eq_none_iff, keys]
      intro member
      have scalar := hasScalar_of_mem_scalarNames distinct member
      rw [hasScalar, found] at scalar
      cases scalar
  | some t =>
      refine Dict.get?_of_mem (keys ▸ nodup_scalarNames distinct)
        (List.mem_map.mpr ⟨(name, t), ?_, rfl⟩)
      unfold scalarType? at found
      split at found
      · rename_i own hown
        cases found
        exact mem_scalarFields.mpr (Dict.mem_of_get? hown)
      · cases found

theorem get?_apiRelations (relations : List ApiRelation) (name : String) :
    Dict.get? (relations.map fun a => (a.apiName, ApiField.relation a.name a.relation)) name =
      (relations.find? (·.apiName = name)).map fun a => .relation a.name a.relation := by
  induction relations with
  | nil => rfl
  | cons a rest ih =>
      by_cases own : a.apiName = name
      · simp [Dict.get?, own]
      · simp [Dict.get?, own, ih]

/-- A requested name means the first offer under it. -/
theorem resolve?_eq_get?_offered (distinct : (Dict.keys e.fields).Nodup) (name : String) :
    e.resolve? name = Dict.get? e.offered name := by
  rw [offered, Dict.get?_append, get?_scalarFields distinct, get?_apiRelations, resolve?]
  cases e.scalarType? name <;> rfl

theorem offers_of_resolve? (distinct : (Dict.keys e.fields).Nodup) {name : String} {x : ApiField}
    (h : e.resolve? name = some x) : e.Offers name x := by
  rw [resolve?_eq_get?_offered distinct] at h
  exact (mem_offered distinct).mp (Dict.mem_of_get? h)

end Entity

namespace Schema

variable {r : Registry} {p : ArgumentProtocol} {e : Entity}

/-- The line says what clients get: the type of a scalar, or the target of a relation, as a list
unless the relation leads to one row. -/
inductive Declares (r : Registry) (p : ArgumentProtocol) : FieldLine → ApiField → Prop
  | scalar {name : String} {t : ScalarType} :
      Declares r p ⟨name, [], .named t.schemaName⟩ (.scalar t)
  | single {name relation : String} {rel : Relation} {target : Entity} :
      rel.cardinality = .one → r.get? rel.target = some target →
      Declares r p ⟨name, relationParameters p target, .named rel.target⟩ (.relation relation rel)
  | list {name relation : String} {rel : Relation} {target : Entity} :
      rel.cardinality ≠ .one → r.get? rel.target = some target →
      Declares r p ⟨name, relationParameters p target, .list (.named rel.target)⟩
        (.relation relation rel)

/-- The line is that of the offer. -/
def DeclaresOffer (r : Registry) (p : ArgumentProtocol) (line : FieldLine)
    (offer : String × ApiField) : Prop :=
  line.name = offer.1 ∧ Declares r p line offer.2

theorem relationLine?_declares {entities : List Entity}
    (accepted : Registry.ofList entities = .ok r) (has : r.Has e) {a : ApiRelation}
    (hrel : e.relation? a.name = some a.relation) :
    ∃ line, relationLine? r p a = some line ∧
      DeclaresOffer r p line (a.apiName, .relation a.name a.relation) := by
  obtain ⟨target, htarget⟩ := Registry.exists_target accepted has hrel
  have named := (Registry.mem_of_get? accepted htarget).2
  refine ⟨_, by rw [relationLine?, htarget]; rfl, rfl, ?_⟩
  cases cardinality : a.relation.cardinality with
  | one =>
      simp only [Cardinality.isList, Bool.false_eq_true, if_false, named]
      exact .single cardinality htarget
  | many | manyThrough via =>
      simp only [Cardinality.isList, if_true, named]
      exact .list (by rw [cardinality]; nofun) htarget

theorem relationLines_declare {entities : List Entity}
    (accepted : Registry.ofList entities = .ok r) (has : r.Has e) {apis : List ApiRelation}
    (own : ∀ a ∈ apis, e.relation? a.name = some a.relation) :
    List.Forall₂ (DeclaresOffer r p) (apis.filterMap (relationLine? r p))
      (apis.map fun a => (a.apiName, .relation a.name a.relation)) := by
  induction apis with
  | nil => exact .nil
  | cons a rest ih =>
      obtain ⟨line, made, declares⟩ :=
        relationLine?_declares accepted has (own a List.mem_cons_self)
      rw [List.filterMap_cons_some made]
      exact .cons declares (ih fun b hb => own b (List.mem_cons_of_mem _ hb))

/-- Every offer has its line, at its place. -/
theorem lines_declare_offered {entities : List Entity}
    (accepted : Registry.ofList entities = .ok r) (has : r.Has e)
    (distinct : (Dict.keys e.fields).Nodup) :
    List.Forall₂ (DeclaresOffer r p)
      (scalarLines e ++ e.apiRelations.filterMap (relationLine? r p)) e.offered := by
  have scalars : List.Forall₂ (DeclaresOffer r p) (scalarLines e)
      (e.scalarFields.map fun field => (field.1, .scalar field.2)) := by
    rw [scalarLines, List.forall₂_map_left_iff, List.forall₂_map_right_iff, List.forall₂_same]
    exact fun field _ => ⟨rfl, .scalar⟩
  refine List.rel_append scalars (relationLines_declare accepted has ?_)
  intro a ha
  obtain ⟨_, field, found, _⟩ := (Entity.mem_apiRelations distinct).mp ha
  exact Entity.relation?_of_relationForField? found

/-- The first offer of a name stands at the place of the first line of the name. -/
theorem get?_eq_find?_zip {lines : List FieldLine} {offers : Dict ApiField}
    (declared : List.Forall₂ (DeclaresOffer r p) lines offers) (name : String) :
    Dict.get? offers name = ((lines.zip offers).find? (·.1.name = name)).map (·.2.2) := by
  induction declared with
  | nil => rfl
  | @cons line offer _ _ first _ ih =>
      by_cases own : offer.1 = name
      · simp [Dict.get?, first.1, own]
      · simp [Dict.get?, first.1, own, ih]

theorem names_of_declared {lines : List FieldLine} {offers : Dict ApiField}
    (declared : List.Forall₂ (DeclaresOffer r p) lines offers) :
    lines.map (·.name) = Dict.keys offers := by
  induction declared with
  | nil => rfl
  | cons first _ ih => exact congrArg₂ List.cons first.1 ih

end Schema

namespace Entity

open Schema

/-- The lines are those of the entity's offers, one for each, and a requested name means what the
first line under it was written for. -/
structure DeclaredBy (r : Registry) (p : ArgumentProtocol) (e : Entity)
    (lines : List FieldLine) : Prop where
  places : List.Forall₂ (DeclaresOffer r p) lines e.offered
  offers : ∀ name x, (name, x) ∈ e.offered ↔ e.Offers name x
  first : ∀ name, e.resolve? name = ((lines.zip e.offered).find? (·.1.name = name)).map (·.2.2)
  undeclared : ∀ name, e.resolve? name = none ↔ name ∉ lines.map (·.name)
  /-- A relation that is hidden, or that no field leads to, has no line and no name. -/
  hidden : ∀ relation, (∀ rel, e.relation? relation = some rel → rel.exposed = false) ∨
      (∀ field via, (field, Field.relation via) ∈ e.fields → via.getD field ≠ relation) →
    ∀ name rel, (name, .relation relation rel) ∉ e.offered ∧
      e.resolve? name ≠ some (.relation relation rel)
  renamed : ∀ relation rel shown, rel.exposedAs = some shown → ∀ name,
    (name, .relation relation rel) ∈ e.offered ∨ e.resolve? name = some (.relation relation rel) →
      name = shown

/-- The object type of an entity of an accepted registry declares what its names mean. -/
theorem declaredBy_objectBlock {entities : List Entity} {r : Registry} {e : Entity}
    (accepted : Registry.ofList entities = .ok r) (has : r.Has e)
    (distinct : (Dict.keys e.fields).Nodup) (p : ArgumentProtocol) :
    ∃ lines, objectBlock r p e = .object e.name lines none ∧ e.DeclaredBy r p lines := by
  have declared : List.Forall₂ (DeclaresOffer r p) _ e.offered :=
    lines_declare_offered accepted has distinct
  refine ⟨_, rfl, ?_⟩
  constructor
  case places => exact declared
  case offers => exact fun name x => mem_offered distinct
  case first =>
    intro name
    rw [resolve?_eq_get?_offered distinct, get?_eq_find?_zip declared]
  case undeclared =>
    intro name
    rw [resolve?_eq_get?_offered distinct, Dict.get?_eq_none_iff, names_of_declared declared]
  case hidden =>
    intro relation unshown name rel
    have unoffered : ¬ e.Offers name (.relation relation rel) := by
      intro offers
      cases offers with
      | relation member hrel exposed =>
          obtain hidden | unused := unshown
          · rw [hidden rel hrel] at exposed
            cases exposed
          · exact unused _ _ member rfl
    exact ⟨mt (mem_offered distinct).mp unoffered, mt (offers_of_resolve? distinct) unoffered⟩
  case renamed =>
    intro relation rel shown named name reached
    have offers : e.Offers name (.relation relation rel) :=
      reached.elim (mem_offered distinct).mp (offers_of_resolve? distinct)
    cases offers with
    | relation member hrel exposed => rw [named, Option.getD_some]

end Entity

namespace Catalog

/-- A chapter has two fields that lead through one relation, a relation shown under the name of a
scalar, one that is hidden and one that no field leads to. -/
def chapter : Entity where
  name := "Chapter"
  table := none
  fields := [("id", .scalar ⟨"integer"⟩), ("topic", .relation (some "toTopic")),
    ("subject", .relation (some "toTopic")), ("title", .scalar ⟨"string"⟩),
    ("label", .relation (some "toLabel")), ("draft", .relation none)]
  relations := [("toTopic", ⟨.one, "Category", ⟨"id", "id"⟩, true, some "category"⟩),
    ("toLabel", ⟨.many, "Category", ⟨"title", "name"⟩, true, some "title"⟩),
    ("draft", ⟨.one, "Category", ⟨"id", "id"⟩, false, none⟩),
    ("spare", ⟨.one, "Category", ⟨"id", "id"⟩, true, none⟩)]
  api := {}

def chapters : Registry := ⟨[("Category", category), ("Chapter", chapter)]⟩

/-- The name of the scalar means the scalar, and the alias means the relation. -/
theorem declaredBy_chapter :
    Registry.ofList [category, chapter] = .ok chapters ∧ chapters.Has chapter ∧
    (Dict.keys chapter.fields).Nodup ∧
    (∃ lines, Schema.objectBlock chapters .standard chapter = .object "Chapter" lines none ∧
      chapter.DeclaredBy chapters .standard lines) ∧
    chapter.resolve? "title" = some (.scalar ⟨"string"⟩) ∧
    chapter.resolve? "category" =
      some (.relation "toTopic" ⟨.one, "Category", ⟨"id", "id"⟩, true, some "category"⟩) ∧
    ∀ name ∈ ["topic", "subject", "label", "draft", "spare"], chapter.resolve? name = none := by
  have accepted : Registry.ofList [category, chapter] = .ok chapters := rfl
  have distinct : (Dict.keys chapter.fields).Nodup := by decide
  exact ⟨accepted, ⟨"Chapter", rfl⟩, distinct,
    Entity.declaredBy_objectBlock accepted ⟨"Chapter", rfl⟩ distinct _,
    rfl, rfl, by decide⟩

end Catalog
end EntityGraph
