import EntityGraph.Proofs.CamelCase
import EntityGraph.Proofs.WrittenDocument

/-!
The document of a blueprint, read by the grammar of schemas. When the names that entities and
options give are valid, so are those put together from them, except the name in camel case of an
entity whose own name has a digit behind its first underscores, or nothing. Where no field and no
argument is called by such a name, the text is read as the types that the blueprint describes.
-/

namespace EntityGraph

open Scan

namespace Schema

/-- A letter comes first in the entity's name, where the field of the operation or an argument is
called by it in camel case. The field for many rows is called by one letter more. -/
def Spells (kind : OperationKind) (e : Entity) : Prop :=
  match kind with
  | .readOne | .create | .update => ∃ c ∈ Text.lead? e.name, isLetter c = true
  | .readMany => ∀ c ∈ Text.lead? e.name, isLetter c = true
  | .delete => True

theorem spells_of_letter {e : Entity} (letter : ∃ c ∈ Text.lead? e.name, isLetter c = true)
    (kind : OperationKind) : Spells kind e := by
  cases kind with
  | readOne | create | update => exact letter
  | readMany =>
      obtain ⟨c, first, isLetter⟩ := letter
      intro d hd
      rw [Option.mem_def] at first hd
      rw [first] at hd
      cases hd
      exact isLetter
  | delete => trivial

end Schema

namespace Blueprint

open Schema

/-- All names that are given are valid. -/
structure Named (b : Blueprint) : Prop where
  entities : ∀ e ∈ b.registry.toList, isName e.name = true
  fields : ∀ e ∈ b.registry.toList, ∀ field ∈ Dict.keys e.fields, isName field = true
  aliases : ∀ e ∈ b.registry.toList, ∀ r ∈ e.relations, ∀ name ∈ r.2.exposedAs, isName name = true
  keys : ∀ e ∈ b.registry.toList, ∀ key ∈ e.primaryField, isName key = true
  scalars : ∀ e ∈ b.registry.toList, ∀ field ∈ e.scalarFields, isName field.2.name = true
  suffixes : ∀ op ∈ b.protocol.operators, isName op.2 = true
  paging : ∀ arg ∈ b.protocol.paging, isName arg.2 = true

/-! The types that a blueprint describes. -/

def scalarInputs (e : Entity) : List Input :=
  e.scalarFields.map fun (field, t) => ⟨field, .named t.schemaName, none⟩

/-- The filters of every scalar of the target by every enabled operator, then the enabled arguments
for ordering and paging. -/
def relationInputs (b : Blueprint) (target : Entity) : List Input :=
  (target.scalarFields.flatMap fun (field, t) =>
    b.protocol.operators.map fun (op, suffix) => ⟨field ++ suffix, argumentType op t, none⟩) ++
  b.protocol.paging.map fun (arg, name) => ⟨name, .named arg.typeName, none⟩

def relationField? (b : Blueprint) (a : ApiRelation) : Option Schema.Field :=
  (b.registry.get? a.relation.target).map fun target =>
    ⟨a.apiName, b.relationInputs target,
      if a.relation.cardinality.isList then .list (.named target.name) else .named target.name⟩

/-- The scalars in their order, then the relations that are shown. -/
def objectFields (b : Blueprint) (e : Entity) : List Schema.Field :=
  e.scalarFields.map (fun (field, t) => ⟨field, [], .named t.schemaName⟩) ++
    e.apiRelations.filterMap b.relationField?

def rootFields (b : Blueprint) (root : RootType) : List Schema.Field :=
  b.registry.toList.flatMap fun e =>
    (b.offered root e).map fun kind => (rootLine kind e).asField

/-- For each entity its object type and its input types, then the root types with fields. -/
def definitions (b : Blueprint) : List Definition :=
  (b.registry.toList.flatMap fun e =>
    .object e.name (b.objectFields e) ::
      (inputNames e).map fun name => .input name (scalarInputs e)) ++
  b.rootTypes.map fun root => .object root.title (b.rootFields root)

variable {b : Blueprint} {e : Entity}

theorem asField_relationLine? (b : Blueprint) (a : ApiRelation) :
    (relationLine? b.registry b.protocol a).map FieldLine.asField = b.relationField? a := by
  unfold relationLine? relationField?
  cases b.registry.get? a.relation.target with
  | none => rfl
  | some target =>
      simp [FieldLine.asField, relationParameters, relationInputs, filterParameters,
        pagingParameters, Parameter.asInput, List.map_flatMap, Function.comp_def]

theorem definition?_entityBlocks (b : Blueprint) (e : Entity) :
    (entityBlocks b.registry b.protocol e).filterMap Block.definition? =
      .object e.name (b.objectFields e) ::
        (inputNames e).map fun name => .input name (scalarInputs e) := by
  have fields : (scalarLines e ++
      e.apiRelations.filterMap (relationLine? b.registry b.protocol)).map FieldLine.asField =
      b.objectFields e := by
    rw [List.map_append, List.map_filterMap, objectFields, scalarLines, List.map_map]
    simp only [asField_relationLine?]
    rfl
  have inputs : (scalarParameters e).map Parameter.asInput = scalarInputs e := by
    rw [scalarParameters, List.map_map]
    rfl
  unfold entityBlocks inputNames
  cases e.hasInputs <;>
    simp [objectBlock, Block.definition?, fields, inputs]

/-- The document is written for what the blueprint describes. -/
theorem definition?_document (plain : b.options.Plain) :
    b.document.filterMap Block.definition? = b.definitions := by
  have roots : ∀ root, (b.rootLines root).map FieldLine.asField = b.rootFields root := by
    intro root
    rw [rootLines_eq, List.map_flatMap, rootFields]
    simp only [List.map_map, Function.comp_def]
  rw [document_eq plain, List.filterMap_append, List.filterMap_flatMap, List.filterMap_map]
  simp only [definition?_entityBlocks]
  rw [definitions]
  congr 1
  simp only [Function.comp_def, Block.definition?, roots]
  exact congrFun List.filterMap_eq_map' _

/-! The form of the document. -/

theorem markedOnce_relationParameters (p : ArgumentProtocol) (target : Entity) :
    ∀ q ∈ relationParameters p target, q.type.MarkedOnce := by
  intro q hq
  obtain filter | paging := List.mem_append.mp hq
  · obtain ⟨field, _, made⟩ := List.mem_flatMap.mp filter
    obtain ⟨⟨op, suffix⟩, _, rfl⟩ := List.mem_map.mp made
    cases op <;> trivial
  · obtain ⟨arg, _, rfl⟩ := List.mem_map.mp paging
    trivial

theorem markedOnce_objectBlock {line : FieldLine}
    (h : line ∈ scalarLines e ++ e.apiRelations.filterMap (relationLine? b.registry b.protocol)) :
    line.type.MarkedOnce ∧ ∀ p ∈ line.arguments, p.type.MarkedOnce := by
  obtain scalar | relation := List.mem_append.mp h
  · obtain ⟨field, _, rfl⟩ := List.mem_map.mp scalar
    exact ⟨trivial, List.forall_mem_nil _⟩
  · obtain ⟨a, _, made⟩ := List.mem_filterMap.mp relation
    obtain ⟨target, _, rfl⟩ := Option.map_eq_some_iff.mp made
    refine ⟨?_, markedOnce_relationParameters b.protocol target⟩
    dsimp only
    split <;> trivial

theorem markedOnce_rootLine (kind : OperationKind) (e : Entity) :
    (rootLine kind e).type.MarkedOnce ∧ ∀ p ∈ (rootLine kind e).arguments, p.type.MarkedOnce := by
  cases kind <;> cases keyed : e.primaryField <;>
    simp [rootLine, keyed, keyType, TypeRef.MarkedOnce, TypeRef.isNonNull]

variable {entities : List Entity} {o : Options}

/-- Every type of the document has a field, and is written for a definition. -/
theorem bare_of_mem (accepted : ofEntities entities o = .ok b) (plain : b.options.Plain)
    (shown : ∀ e ∈ b.registry.toList, e.hasInputs = true ∨ e.apiRelations ≠ []) {block : Block}
    (h : block ∈ b.document) : block.Bare := by
  have inhabited := (fieldNames_ne_nil_iff accepted plain).mpr shown block h
  obtain ⟨e, he, rfl | ⟨name, made, rfl⟩⟩ | ⟨root, hroot, rfl⟩ := (mem_document plain).mp h
  · refine ⟨fun none => inhabited (List.map_eq_nil_iff.mpr none), rfl, ?_⟩
    exact fun _ => markedOnce_objectBlock
  · refine ⟨fun none => inhabited (List.map_eq_nil_iff.mpr none), ?_⟩
    exact List.forall_mem_map.mpr fun field _ => trivial
  · refine ⟨fun none => inhabited (List.map_eq_nil_iff.mpr none), rfl, fun line hline => ?_⟩
    obtain ⟨e, _, kind, _, rfl⟩ := exists_offered_of_mem hline
    exact markedOnce_rootLine kind e

/-! The names in the document. -/

theorem isName_append {s t : String} (left : isName s = true) (right : isName t = true) :
    isName (s ++ t) = true := by
  obtain ⟨c, cs, letters, start, inside⟩ := isName_cons left
  simp only [isName, String.toList_append, letters, List.cons_append, Bool.and_eq_true,
    List.all_eq_true]
  exact ⟨start, List.forall_mem_append.mpr ⟨inside, Text.plain_of_isName right⟩⟩

theorem isName_schemaName {t : ScalarType} (valid : isName t.name = true) :
    isName t.schemaName = true := by
  unfold ScalarType.schemaName
  split_ifs
  · decide
  · decide
  · obtain ⟨c, cs, letters, start, _⟩ := isName_cons valid
    have alike : (Text.capitalizeFirst t.name).toList.map Char.toLower =
        t.name.toList.map Char.toLower := by
      rw [Text.capitalizeFirst, letters, String.toList_ofList, List.map_append,
        Text.toLower_upperChar (isNameChar_of_isNameStart start), List.map_cons,
        List.singleton_append]
    rw [Text.isName_of_alike (Text.plain_of_isName valid) alike, letters]
    exact ⟨c, rfl, start⟩

section
variable (named : b.Named) (he : e ∈ b.registry.toList)
include named he

theorem isName_scalarField {field : String × ScalarType} (h : field ∈ e.scalarFields) :
    isName field.1 = true ∧ isName field.2.schemaName = true := by
  refine ⟨named.fields e he field.1 ?_, isName_schemaName (named.scalars e he field h)⟩
  obtain ⟨⟨name, declared⟩, member, made⟩ := List.mem_filterMap.mp h
  cases declared with
  | relation _ => cases made
  | scalar t =>
      cases made
      exact List.mem_map_of_mem member

theorem isName_relationParameters {p : Parameter} (h : p ∈ relationParameters b.protocol e) :
    ∀ n ∈ p.names, isName n = true := by
  have builtIn : isName "Boolean" = true ∧ isName "String" = true ∧ isName "Int" = true := by
    decide
  rw [Parameter.forall_names]
  obtain filter | paging := List.mem_append.mp h
  · obtain ⟨field, hfield, made⟩ := List.mem_flatMap.mp filter
    obtain ⟨⟨op, suffix⟩, hop, rfl⟩ := List.mem_map.mp made
    obtain ⟨own, typed⟩ := isName_scalarField named he hfield
    refine ⟨isName_append own (named.suffixes _ hop), ?_⟩
    cases op with
    | isNull => exact builtIn.1
    | _ => exact typed
  · obtain ⟨⟨arg, name⟩, harg, rfl⟩ := List.mem_map.mp paging
    refine ⟨named.paging _ harg, ?_⟩
    cases arg with
    | orderBy | orderByDesc => exact builtIn.2.1
    | limit | offset => exact builtIn.2.2

theorem isName_apiName {a : ApiRelation} (h : a ∈ e.apiRelations) : isName a.apiName = true := by
  obtain ⟨field, hfield, made⟩ := List.mem_filterMap.mp h
  split at made
  · rename_i name rel found
    obtain ⟨_, ⟨⟩⟩ := Option.ite_none_right_eq_some.mp made
    have declared := Dict.mem_of_get? (Entity.relation?_of_relationForField? found)
    dsimp only
    cases shown : rel.exposedAs with
    | none => exact named.fields e he field hfield
    | some other => exact named.aliases e he _ declared other shown
  · cases made

theorem isName_objectBlock :
    ∀ n ∈ (objectBlock b.registry b.protocol e).names, isName n = true := by
  refine Block.forall_names_object.mpr ⟨named.entities e he, fun line hline => ?_⟩
  rw [FieldLine.forall_names]
  obtain scalar | relation := List.mem_append.mp hline
  · obtain ⟨field, hfield, rfl⟩ := List.mem_map.mp scalar
    obtain ⟨own, typed⟩ := isName_scalarField named he hfield
    exact ⟨own, typed, List.forall_mem_nil _⟩
  · obtain ⟨a, ha, made⟩ := List.mem_filterMap.mp relation
    obtain ⟨target, found, rfl⟩ := Option.map_eq_some_iff.mp made
    have ht := Registry.mem_toList_of_has ⟨_, found⟩
    refine ⟨isName_apiName named he ha, ?_, fun p => isName_relationParameters named ht⟩
    dsimp only
    split <;> exact named.entities target ht

theorem isName_of_mem_inputNames {name : String} (h : name ∈ inputNames e) :
    isName name = true := by
  obtain ⟨_, suffix, hs, rfl⟩ := mem_inputNames.mp h
  have letters : ∀ suffix ∈ ["CreateInput", "UpdateInput"], isName suffix = true := by decide
  exact isName_append (named.entities e he) (letters suffix hs)

theorem isName_inputBlock {name : String} (h : name ∈ inputNames e) :
    ∀ n ∈ (Block.input name (scalarParameters e)).names, isName n = true := by
  refine Block.forall_names_input.mpr ⟨isName_of_mem_inputNames named he h, ?_⟩
  refine List.forall_mem_map.mpr fun field hfield => ?_
  rw [Parameter.forall_names]
  exact isName_scalarField named he hfield

/-- The names in a root field are valid when the entity's name in camel case is. -/
theorem isName_rootLine_iff (kind : OperationKind) :
    (∀ n ∈ (rootLine kind e).names, isName n = true) ↔ Spells kind e := by
  have own := named.entities e he
  have camel : isName e.camelName = true ↔ ∃ c ∈ Text.lead? e.name, isLetter c = true :=
    Text.isName_camelCase own
  have plural : isName e.pluralName = true ↔ ∀ c ∈ Text.lead? e.name, isLetter c = true :=
    Text.isName_camelCase_append own
  have inputs : isName e.createInputName = true ∧ isName e.updateInputName = true :=
    ⟨isName_append own (by decide), isName_append own (by decide)⟩
  have operations : isName ("create" ++ e.name) = true ∧ isName ("update" ++ e.name) = true ∧
      isName ("delete" ++ e.name) = true :=
    ⟨isName_append (by decide) own, isName_append (by decide) own,
      isName_append (by decide) own⟩
  have keys := named.keys e he
  have arrays : ∀ key ∈ e.primaryField, isName (key ++ "Array") = true :=
    fun key hkey => isName_append (keys key hkey) (by decide)
  have builtIn : isName "Int" = true ∧ isName "Boolean" = true := by decide
  rw [FieldLine.forall_names]
  cases kind <;> cases keyed : e.primaryField <;> rw [keyed] at keys arrays <;>
    simp_all [rootLine, Spells, Parameter.forall_names, keyType, TypeRef.base]

end

/-- Given valid names, all names in the document are valid where every field that is offered can be
spelled. -/
theorem isName_document_iff (named : b.Named) (plain : b.options.Plain) :
    (∀ block ∈ b.document, ∀ n ∈ block.names, isName n = true) ↔
      ∀ e ∈ b.registry.toList, ∀ root, ∀ kind ∈ b.offered root e, Spells kind e := by
  constructor
  · intro valid e he root kind hkind
    have declared : rootLine kind e ∈ b.rootLines root := by
      rw [rootLines_eq]
      exact List.mem_flatMap.mpr ⟨e, he, List.mem_map_of_mem hkind⟩
    have shown := mem_rootTypes.mpr (List.ne_nil_of_mem declared)
    have names := valid _ ((mem_document plain).mpr (.inr ⟨root, shown, rfl⟩))
    exact (isName_rootLine_iff named he kind).mp
      ((Block.forall_names_object.mp names).2 _ declared)
  · intro spells block h
    obtain ⟨e, he, rfl | ⟨name, made, rfl⟩⟩ | ⟨root, _, rfl⟩ := (mem_document plain).mp h
    · exact isName_objectBlock named he
    · exact isName_inputBlock named he made
    · refine Block.forall_names_object.mpr ⟨by cases root <;> decide, fun line hline => ?_⟩
      obtain ⟨e, he, kind, hkind, rfl⟩ := exists_offered_of_mem hline
      exact (isName_rootLine_iff named he kind).mpr (spells e he root kind hkind)

theorem document_ne_nil (accepted : ofEntities entities o = .ok b) (some_entity : entities ≠ []) :
    b.document ≠ [] := by
  have listed := Registry.toList_of_accepted (ofEntities_ok accepted).1
  cases entities with
  | nil => exact absurd rfl some_entity
  | cons e entities =>
      rw [List.map_cons] at listed
      simp [document, blocks, listed, entityBlocks]

/-- The text of an accepted blueprint with valid names, and with a field in every type, is read as
the types that the blueprint describes exactly when every field that is offered can be spelled. -/
theorem readDocument?_documentText_iff (accepted : ofEntities entities o = .ok b)
    (some_entity : entities ≠ []) (plain : b.options.Plain) (named : b.Named)
    (shown : ∀ e ∈ b.registry.toList, e.hasInputs = true ∨ e.apiRelations ≠ []) :
    readDocument? b.documentText = some b.definitions ↔
      ∀ e ∈ b.registry.toList, ∀ root, ∀ kind ∈ b.offered root e, Spells kind e := by
  rw [← isName_document_iff named plain, ← definition?_document plain]
  exact readDocument?_documentText (document_ne_nil accepted some_entity)
    fun block => bare_of_mem accepted plain shown

end Blueprint

namespace Catalog

open Blueprint Schema

theorem named : blueprint.Named where
  entities := by decide +kernel
  fields := by decide +kernel
  aliases := by decide +kernel
  keys := by decide +kernel
  scalars := by decide +kernel
  suffixes := by decide +kernel
  paging := by decide +kernel

theorem readDocument?_catalog :
    Blueprint.ofEntities [category, course] {} = .ok blueprint ∧ blueprint.options.Plain ∧
    blueprint.Named ∧
    (∀ e ∈ blueprint.registry.toList, e.hasInputs = true ∨ e.apiRelations ≠ []) ∧
    readDocument? blueprint.documentText = some blueprint.definitions := by
  have shown : ∀ e ∈ blueprint.registry.toList, e.hasInputs = true ∨ e.apiRelations ≠ [] := by
    decide +kernel
  have leads : ∀ e ∈ blueprint.registry.toList, Text.lead? e.name = some 'C' := by
    decide +kernel
  refine ⟨blueprint_accepted, plain, named, shown, ?_⟩
  refine (readDocument?_documentText_iff blueprint_accepted (by decide) plain named shown).mpr ?_
  exact fun e he _ kind _ => spells_of_letter ⟨'C', leads e he, by decide⟩ kind

/-- An entity whose name in camel case is a digit. -/
def numbered : Entity where
  name := "_1"
  table := none
  fields := [("id", .scalar ⟨"integer"⟩)]
  relations := []
  api := { defaultMutations := false }

def numberedOnly : Blueprint := ⟨⟨[("_1", numbered)]⟩, .standard, {}⟩

/-- All names that are given are valid, and yet the document cannot be read. -/
theorem readDocument?_numbered :
    Blueprint.ofEntities [numbered] {} = .ok numberedOnly ∧ numberedOnly.options.Plain ∧
    numberedOnly.Named ∧
    (∀ e ∈ numberedOnly.registry.toList, e.hasInputs = true ∨ e.apiRelations ≠ []) ∧
    readDocument? numberedOnly.documentText = none := by
  have named : numberedOnly.Named :=
    ⟨by decide +kernel, by decide +kernel, by decide +kernel, by decide +kernel,
      by decide +kernel, by decide +kernel, by decide +kernel⟩
  refine ⟨rfl, plain, named, by decide +kernel, ?_⟩
  exact Option.isNone_iff_eq_none.mp (by decide +kernel)

end Catalog
end EntityGraph
