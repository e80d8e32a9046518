import EntityGraph.Proofs.Compile
import EntityGraph.Proofs.RootFields
import EntityGraph.Service.TypeTable

/-!
Which entities make a well-formed schema document. The document declares its types and fields under
names put together from those of entities, fields and relations, and mentions types by such names.
Whether two of them meet, whether a type is left without a field, and whether a name that is
mentioned is that of a scalar is settled here for every set of entities that is accepted.
-/

namespace EntityGraph

namespace Schema

/-- The types of the field and of its arguments. -/
def FieldLine.mentions (f : FieldLine) : List String :=
  f.type.base :: f.arguments.map fun p => p.type.base

namespace Block

/-- The name of the type that the block declares. -/
def typeName? : Block → Option String
  | .object name _ _ | .input name _ => some name
  | .verbatim _ => none

def fieldNames : Block → List String
  | .object _ fields _ => fields.map (·.name)
  | .input _ fields => fields.map (·.name)
  | .verbatim _ => []

/-- The types that the block names. -/
def mentions : Block → List String
  | .object _ fields _ => fields.flatMap FieldLine.mentions
  | .input _ fields => fields.map fun p => p.type.base
  | .verbatim _ => []

end Block

/-- The names of the input types of the entity. -/
def inputNames (e : Entity) : List String :=
  if e.hasInputs then [e.createInputName, e.updateInputName] else []

end Schema

/-- Names that end in texts of one length are equal only part by part. -/
theorem Text.append_inj_of_length {a b s t : String} (same : a ++ s = b ++ t)
    (lengths : s.length = t.length) : a = b ∧ s = t := by
  have lists := congrArg String.toList same
  rw [String.toList_append, String.toList_append] at lists
  rw [← String.length_toList, ← String.length_toList] at lengths
  obtain ⟨front, back⟩ := List.append_inj' lists lengths
  exact ⟨String.toList_inj.mp front, String.toList_inj.mp back⟩

/-- No text is added to the document. -/
structure Options.Plain (o : Options) : Prop where
  types : Schema.addedText? o.extendTypes = none
  queries : Schema.addedText? o.extendQueries = none
  mutations : Schema.addedText? o.extendMutations = none

namespace Blueprint

open Schema Service

/-- The names of the declared types. -/
def typeNames (b : Blueprint) : List String := b.document.filterMap Block.typeName?

/-- The name is that of a scalar which some field has, and of nothing that is declared. -/
def IsScalar (b : Blueprint) (name : String) : Prop :=
  (∃ e ∈ b.registry.toList, ∃ field ∈ e.scalarFields, field.2.schemaName = name) ∧
    name ∉ b.typeNames

/-- The name is that of an entity, a generated input type, a built-in scalar or another scalar. -/
def Knows (b : Blueprint) (name : String) : Prop :=
  (∃ e ∈ b.registry.toList, e.name = name) ∨ (∃ e ∈ b.registry.toList, name ∈ inputNames e) ∨
    name ∈ TypeTable.builtIns ∨ b.IsScalar name

/-- What makes the document a schema: types declared once and with fields, fields declared once in
their type, and nothing mentioned that is neither declared nor a scalar. -/
structure WellFormed (b : Blueprint) : Prop where
  once : b.typeNames.Nodup
  inhabited : ∀ block ∈ b.document, block.fieldNames ≠ []
  distinct : ∀ block ∈ b.document, block.fieldNames.Nodup
  known : ∀ block ∈ b.document, ∀ name ∈ block.mentions, b.Knows name

variable {entities : List Entity} {o : Options} {b : Blueprint}

/-- The root types that have generated fields. -/
def rootTypes (b : Blueprint) : List RootType :=
  [.query, .mutation].filter fun root => !(b.rootLines root).isEmpty

theorem mem_rootTypes {root : RootType} : root ∈ b.rootTypes ↔ b.rootLines root ≠ [] := by
  cases root <;> simp [rootTypes]

theorem document_eq (plain : b.options.Plain) :
    b.document =
      b.registry.toList.flatMap (entityBlocks b.registry b.protocol) ++
        b.rootTypes.map fun root => .object root.title (b.rootLines root) none := by
  have block : ∀ name lines added, addedText? added = none →
      (rootBlock? name lines added).toList =
        if lines.isEmpty then [] else [.object name lines none] := by
    intro name lines added nothing
    simp only [rootBlock?, nothing, Option.isNone_none, Bool.and_true]
    split_ifs <;> rfl
  have roots : ∀ lines : RootType → List FieldLine,
      (([.query, .mutation].filter fun root => !(lines root).isEmpty).map fun root =>
        Block.object root.title (lines root) none) =
      (if (lines .query).isEmpty then [] else [.object "Query" (lines .query) none]) ++
        if (lines .mutation).isEmpty then [] else [.object "Mutation" (lines .mutation) none] := by
    intro lines
    cases query : (lines .query).isEmpty <;> cases mutation : (lines .mutation).isEmpty <;>
      simp [query, mutation, RootType.title]
  rw [rootTypes, roots, ← List.append_assoc]
  simp only [document, blocks, plain.types, block _ _ _ plain.queries,
    block _ _ _ plain.mutations, Option.map_none, Option.toList_none, List.append_nil]
  rfl

/-- The blocks of a document are those of the entities and those of the root types. -/
theorem mem_document (plain : b.options.Plain) {block : Block} :
    block ∈ b.document ↔
      (∃ e ∈ b.registry.toList, block = objectBlock b.registry b.protocol e ∨
        ∃ name ∈ inputNames e, block = .input name (scalarParameters e)) ∨
      ∃ root ∈ b.rootTypes, block = .object root.title (b.rootLines root) none := by
  have own : ∀ e, block ∈ entityBlocks b.registry b.protocol e ↔
      block = objectBlock b.registry b.protocol e ∨
        ∃ name ∈ inputNames e, block = .input name (scalarParameters e) := by
    intro e
    unfold entityBlocks inputNames
    cases e.hasInputs <;> simp
  simp only [document_eq plain, List.mem_append, List.mem_flatMap, List.mem_map, own, eq_comm]

theorem names_entityBlocks (r : Registry) (p : ArgumentProtocol) (e : Entity) :
    (entityBlocks r p e).filterMap Block.typeName? = e.name :: inputNames e := by
  unfold entityBlocks inputNames
  cases e.hasInputs <;> rfl

theorem typeNames_eq (plain : b.options.Plain) :
    b.typeNames =
      (b.registry.toList.flatMap fun e => e.name :: inputNames e) ++
        b.rootTypes.map RootType.title := by
  rw [typeNames, document_eq plain, List.filterMap_append, List.filterMap_flatMap,
    List.filterMap_map]
  simp only [names_entityBlocks]
  congr 1
  exact congrFun List.filterMap_eq_map' _

/-! Types that are declared once. -/

/-- An input type is named by its entity and eleven letters more. -/
theorem mem_inputNames {e : Entity} {name : String} :
    name ∈ inputNames e ↔
      e.hasInputs = true ∧ ∃ suffix ∈ ["CreateInput", "UpdateInput"], name = e.name ++ suffix := by
  unfold inputNames
  cases e.hasInputs <;> simp [Entity.createInputName, Entity.updateInputName]

theorem length_inputSuffix : ∀ suffix ∈ ["CreateInput", "UpdateInput"], suffix.length = 11 := by
  decide

theorem eq_of_inputNames {e f : Entity} {name : String} (he : name ∈ inputNames e)
    (hf : name ∈ inputNames f) : e.name = f.name := by
  obtain ⟨_, suffix, hs, rfl⟩ := mem_inputNames.mp he
  obtain ⟨_, other, ho, same⟩ := mem_inputNames.mp hf
  have lengths := (length_inputSuffix suffix hs).trans (length_inputSuffix other ho).symm
  exact (Text.append_inj_of_length same lengths).1

/-- The names of input types are longer than those of root types. -/
theorem title_not_mem_inputNames (root : RootType) (e : Entity) : root.title ∉ inputNames e := by
  intro h
  obtain ⟨_, suffix, hs, same⟩ := mem_inputNames.mp h
  have lengths := congrArg String.length same
  have short : root.title.length ≤ 8 := by cases root <;> decide
  rw [String.length_append, length_inputSuffix suffix hs] at lengths
  omega

theorem nodup_rootTypes (b : Blueprint) : (b.rootTypes.map RootType.title).Nodup := by
  have all : ([.query, .mutation].map RootType.title).Nodup := by decide
  exact all.sublist (List.filter_sublist.map RootType.title)

/-- The types are declared once when no entity has the name of an input type or a root type. -/
theorem nodup_typeNames_iff (accepted : ofEntities entities o = .ok b) (plain : b.options.Plain) :
    b.typeNames.Nodup ↔
      (∀ e ∈ b.registry.toList, ∀ f ∈ b.registry.toList, e.name ∉ inputNames f) ∧
        ∀ e ∈ b.registry.toList, ∀ root ∈ b.rootTypes, e.name ≠ root.title := by
  have named := Registry.nodup_names (ofEntities_ok accepted).1
  have inj : ∀ e ∈ b.registry.toList, ∀ f ∈ b.registry.toList, e.name = f.name → e = f :=
    fun e he f hf => List.inj_on_of_nodup_map named he hf
  rw [typeNames_eq plain, List.nodup_append, nodup_flatMap_iff named.of_map]
  constructor
  · rintro ⟨⟨own, apart⟩, _, roots⟩
    refine ⟨?_, ?_⟩
    · intro e he f hf h
      by_cases same : e = f
      · subst same
        exact (List.nodup_cons.mp (own e he)).1 h
      · exact apart e he f hf same List.mem_cons_self (List.mem_cons_of_mem _ h)
    · intro e he root hroot
      exact roots _ (List.mem_flatMap.mpr ⟨e, he, List.mem_cons_self⟩) _
        (List.mem_map.mpr ⟨root, hroot, rfl⟩)
  · rintro ⟨inputs, roots⟩
    refine ⟨⟨?_, ?_⟩, b.nodup_rootTypes, ?_⟩
    · intro e he
      refine List.nodup_cons.mpr ⟨inputs e he e he, ?_⟩
      unfold inputNames
      split_ifs <;> simp [Entity.createInputName, Entity.updateInputName, ← String.toList_inj]
    · intro e he f hf different name hname hname'
      obtain rfl | hname := List.mem_cons.mp hname
      · obtain same | hname' := List.mem_cons.mp hname'
        · exact different (inj e he f hf same)
        · exact inputs e he f hf hname'
      · obtain rfl | hname' := List.mem_cons.mp hname'
        · exact inputs f hf e he hname
        · exact different (inj e he f hf (eq_of_inputNames hname hname'))
    · intro name hname title htitle
      obtain ⟨e, he, hname⟩ := List.mem_flatMap.mp hname
      obtain ⟨root, hroot, rfl⟩ := List.mem_map.mp htitle
      obtain rfl | hname := List.mem_cons.mp hname
      · exact roots e he root hroot
      · exact fun same => title_not_mem_inputNames root e (same ▸ hname)

/-! Types with fields, each declared once. -/

variable {e : Entity}

theorem nodup_scalarNames (accepted : ofEntities entities o = .ok b)
    (dictionaries : ∀ e ∈ entities, (Dict.keys e.fields).Nodup) (he : e ∈ b.registry.toList) :
    e.scalarNames.Nodup := by
  obtain ⟨registered, _⟩ := ofEntities_ok accepted
  obtain ⟨member, _⟩ :=
    Registry.mem_of_get? registered (Registry.get?_of_mem_toList registered he)
  obtain ⟨own, hown, rfl⟩ := List.mem_map.mp member
  exact Entity.nodup_scalarNames (Entity.nodup_keys_mergedWith (dictionaries own hown) _)

/-- Every relation that is shown has a target. -/
theorem exists_target_of_api (accepted : ofEntities entities o = .ok b)
    (he : e ∈ b.registry.toList) {a : ApiRelation} (ha : a ∈ e.apiRelations) :
    ∃ target ∈ b.registry.toList, b.registry.get? a.relation.target = some target := by
  obtain ⟨registered, _⟩ := ofEntities_ok accepted
  obtain ⟨source, _, made⟩ := List.mem_filterMap.mp ha
  split at made
  · rename_i name rel found
    split at made
    · cases made
      obtain ⟨target, htarget⟩ := Registry.exists_target registered
        ⟨e.name, Registry.get?_of_mem_toList registered he⟩
        (Entity.relation?_of_relationForField? found)
      exact ⟨target, Registry.mem_toList_of_has ⟨_, htarget⟩, htarget⟩
    · cases made
  · cases made

theorem names_scalarLines (e : Entity) : (scalarLines e).map (·.name) = e.scalarNames := by
  rw [scalarLines, Entity.scalarNames, List.map_map]
  rfl

theorem names_objectBlock (accepted : ofEntities entities o = .ok b)
    (he : e ∈ b.registry.toList) :
    (objectBlock b.registry b.protocol e).fieldNames =
      e.scalarNames ++ e.apiRelations.map (·.apiName) := by
  have shown : ∀ a ∈ e.apiRelations,
      (relationLine? b.registry b.protocol a).map (·.name) = some a.apiName := by
    intro a ha
    obtain ⟨target, _, found⟩ := exists_target_of_api accepted he ha
    simp [relationLine?, found]
  have relations : (e.apiRelations.filterMap (relationLine? b.registry b.protocol)).map (·.name) =
      e.apiRelations.map (·.apiName) := by
    rw [List.map_filterMap, List.filterMap_congr shown]
    exact congrFun List.filterMap_eq_map' _
  rw [objectBlock, Block.fieldNames, List.map_append, relations, names_scalarLines]

/-- What holds of the field names of every type. -/
theorem forall_fieldNames_iff (accepted : ofEntities entities o = .ok b) (plain : b.options.Plain)
    (P : List String → Prop) :
    (∀ block ∈ b.document, P block.fieldNames) ↔
      (∀ e ∈ b.registry.toList, P (e.scalarNames ++ e.apiRelations.map (·.apiName)) ∧
        (e.hasInputs = true → P e.scalarNames)) ∧
      ∀ root ∈ b.rootTypes, P ((b.rootLines root).map (·.name)) := by
  have inputs : ∀ e name, (Block.input name (scalarParameters e)).fieldNames = e.scalarNames := by
    intro e name
    rw [Block.fieldNames, scalarParameters, Entity.scalarNames, List.map_map]
    rfl
  constructor
  · intro all
    refine ⟨fun e he => ⟨?_, ?_⟩, ?_⟩
    · rw [← names_objectBlock accepted he]
      exact all _ ((mem_document plain).mpr (.inl ⟨e, he, .inl rfl⟩))
    · intro hasInputs
      have made : e.createInputName ∈ inputNames e := by simp [inputNames, hasInputs]
      rw [← inputs e e.createInputName]
      exact all _ ((mem_document plain).mpr (.inl ⟨e, he, .inr ⟨_, made, rfl⟩⟩))
    · intro root hroot
      exact all _ ((mem_document plain).mpr (.inr ⟨root, hroot, rfl⟩))
  · rintro ⟨entities, roots⟩ block h
    obtain ⟨e, he, rfl | ⟨name, made, rfl⟩⟩ | ⟨root, hroot, rfl⟩ := (mem_document plain).mp h
    · rw [names_objectBlock accepted he]
      exact (entities e he).1
    · rw [inputs]
      exact (entities e he).2 (mem_inputNames.mp made).1
    · exact roots root hroot

theorem hasInputs_iff : e.hasInputs = true ↔ e.scalarNames ≠ [] := by
  simp [Entity.hasInputs, Entity.scalarNames]

/-- A type is without a field only where an entity has nothing to show. -/
theorem fieldNames_ne_nil_iff (accepted : ofEntities entities o = .ok b)
    (plain : b.options.Plain) :
    (∀ block ∈ b.document, block.fieldNames ≠ []) ↔
      ∀ e ∈ b.registry.toList, e.hasInputs = true ∨ e.apiRelations ≠ [] := by
  rw [forall_fieldNames_iff accepted plain (· ≠ [])]
  constructor
  · rintro ⟨shown, _⟩ e he
    by_contra nothing
    rw [not_or, not_not, hasInputs_iff, not_not] at nothing
    exact (shown e he).1 (by rw [nothing.1, nothing.2]; rfl)
  · intro shown
    refine ⟨fun e he => ⟨?_, hasInputs_iff.mp⟩, ?_⟩
    · intro nothing
      obtain ⟨noScalar, noRelation⟩ := List.append_eq_nil_iff.mp nothing
      obtain scalar | relation := shown e he
      · exact hasInputs_iff.mp scalar noScalar
      · exact relation (List.map_eq_nil_iff.mp noRelation)
    · intro root hroot nothing
      exact mem_rootTypes.mp hroot (List.map_eq_nil_iff.mp nothing)

/-- The fields of a type have different names when no relation is shown under the name of a scalar
or of another relation, and the queries of different entities can be told apart. -/
theorem nodup_fieldNames_iff (accepted : ofEntities entities o = .ok b) (plain : b.options.Plain)
    (dictionaries : ∀ e ∈ entities, (Dict.keys e.fields).Nodup) :
    (∀ block ∈ b.document, block.fieldNames.Nodup) ↔
      (∀ e ∈ b.registry.toList, (e.apiRelations.map (·.apiName)).Nodup ∧
        ∀ a ∈ e.apiRelations, a.apiName ∉ e.scalarNames) ∧
      (b.options.queryOptions.areEnabled = true →
        ∀ e ∈ b.registry.toList, ∀ f ∈ b.registry.toList, e ≠ f →
          e.api.defaultQueries = true → f.api.defaultQueries = true → QueriesApart e f) := by
  rw [forall_fieldNames_iff accepted plain List.Nodup, ← nodup_names_query_iff accepted]
  refine and_congr ?_ ?_
  · refine forall₂_congr fun e he => ?_
    have scalars := nodup_scalarNames accepted dictionaries he
    rw [List.nodup_append]
    constructor
    · rintro ⟨⟨_, relations, apart⟩, _⟩
      exact ⟨relations, fun a ha h => apart _ h _ (List.mem_map_of_mem ha) rfl⟩
    · rintro ⟨relations, apart⟩
      refine ⟨⟨scalars, relations, ?_⟩, fun _ => scalars⟩
      intro name hname other hother same
      obtain ⟨a, ha, rfl⟩ := List.mem_map.mp hother
      exact apart a ha (same ▸ hname)
  · constructor
    · intro roots
      by_cases declared : b.rootLines .query = []
      · rw [declared]
        exact .nil
      · exact roots .query (mem_rootTypes.mpr declared)
    · intro queries root _
      cases root with
      | query => exact queries
      | mutation => exact nodup_names_mutation accepted

/-! Types that are mentioned. -/

theorem knows_entity (he : e ∈ b.registry.toList) : b.Knows e.name := .inl ⟨e, he, rfl⟩

theorem knows_input (he : e ∈ b.registry.toList) {name : String} (h : name ∈ inputNames e) :
    b.Knows name := .inr (.inl ⟨e, he, h⟩)

theorem knows_builtIn {name : String} (h : name ∈ TypeTable.builtIns) : b.Knows name :=
  .inr (.inr (.inl h))

/-- Every scalar of the entities is known by its name in schemas. -/
def ScalarsKnown (b : Blueprint) : Prop :=
  ∀ e ∈ b.registry.toList, ∀ field ∈ e.scalarFields, b.Knows field.2.schemaName

theorem knows_argument (scalars : b.ScalarsKnown) (he : e ∈ b.registry.toList) {p : Parameter}
    (h : p ∈ relationParameters b.protocol e) : b.Knows p.type.base := by
  have boolean : b.Knows "Boolean" := knows_builtIn (by decide)
  have string : b.Knows "String" := knows_builtIn (by decide)
  have int : b.Knows "Int" := knows_builtIn (by decide)
  obtain filter | paging := List.mem_append.mp h
  · obtain ⟨field, hfield, made⟩ := List.mem_flatMap.mp filter
    obtain ⟨⟨op, suffix⟩, _, rfl⟩ := List.mem_map.mp made
    cases op with
    | isNull => exact boolean
    | _ => exact scalars e he field hfield
  · obtain ⟨⟨arg, name⟩, _, rfl⟩ := List.mem_map.mp paging
    cases arg with
    | orderBy | orderByDesc => exact string
    | limit | offset => exact int

theorem knows_relationLine (scalars : b.ScalarsKnown) (registered : ∀ {name target},
      b.registry.get? name = some target → target ∈ b.registry.toList)
    {a : ApiRelation} {line : FieldLine} (made : relationLine? b.registry b.protocol a = some line)
    {name : String} (h : name ∈ line.mentions) : b.Knows name := by
  obtain ⟨target, found, rfl⟩ := Option.map_eq_some_iff.mp made
  have ht := registered found
  obtain rfl | h := List.mem_cons.mp h
  · dsimp only
    split <;> exact knows_entity ht
  · obtain ⟨p, hp, rfl⟩ := List.mem_map.mp h
    exact knows_argument scalars ht hp

/-- A root field mentions its entity, a built-in scalar, and the input type that it takes. -/
theorem mem_mentions_rootLine {root : RootType} {kind : OperationKind}
    (hkind : kind ∈ b.offered root e) {name : String} (h : name ∈ (rootLine kind e).mentions) :
    name = e.name ∨ name ∈ TypeTable.builtIns ∨ name ∈ inputNames e := by
  have int : "Int" ∈ TypeTable.builtIns := by decide
  have boolean : "Boolean" ∈ TypeTable.builtIns := by decide
  have inputs : kind = .create ∨ kind = .update →
      e.createInputName ∈ inputNames e ∧ e.updateInputName ∈ inputNames e := by
    intro written
    simp [inputNames, hasInputs_of_offered hkind written]
  cases kind <;> cases keyed : e.primaryField <;>
    simp only [rootLine, keyed, FieldLine.mentions, TypeRef.base, keyType, Option.toList_none,
      Option.toList_some, List.map_nil, List.map_cons, List.nil_append, List.cons_append,
      List.mem_cons, List.not_mem_nil, or_false] at h <;>
    grind

theorem knows_mentions_iff (accepted : ofEntities entities o = .ok b) (plain : b.options.Plain) :
    (∀ block ∈ b.document, ∀ name ∈ block.mentions, b.Knows name) ↔ b.ScalarsKnown := by
  have registered := (ofEntities_ok accepted).1
  constructor
  · intro known e he field hfield
    refine known _ ((mem_document plain).mpr (.inl ⟨e, he, .inl rfl⟩)) _ ?_
    refine List.mem_flatMap.mpr ⟨⟨field.1, [], .named field.2.schemaName⟩, ?_, List.mem_cons_self⟩
    exact List.mem_append_left _ (List.mem_map.mpr ⟨field, hfield, rfl⟩)
  · intro scalars block hblock name h
    obtain ⟨e, he, rfl | ⟨input, made, rfl⟩⟩ | ⟨root, hroot, rfl⟩ := (mem_document plain).mp hblock
    · obtain ⟨line, hline, h⟩ := List.mem_flatMap.mp h
      obtain hline | hline := List.mem_append.mp hline
      · obtain ⟨field, hfield, rfl⟩ := List.mem_map.mp hline
        obtain rfl := List.mem_singleton.mp h
        exact scalars e he field hfield
      · obtain ⟨a, ha, made⟩ := List.mem_filterMap.mp hline
        exact knows_relationLine scalars (fun found => Registry.mem_toList_of_has ⟨_, found⟩) made h
    · obtain ⟨p, hp, rfl⟩ := List.mem_map.mp h
      obtain ⟨field, hfield, rfl⟩ := List.mem_map.mp hp
      exact scalars e he field hfield
    · obtain ⟨line, hline, h⟩ := List.mem_flatMap.mp h
      obtain ⟨e, he, kind, hkind, rfl⟩ := exists_offered_of_mem hline
      obtain rfl | builtIn | input := mem_mentions_rootLine hkind h
      · exact knows_entity he
      · exact knows_builtIn builtIn
      · exact knows_input he input

/-- A scalar is taken for another type only where it has the name of a root type. -/
theorem scalarsKnown_iff (plain : b.options.Plain) :
    b.ScalarsKnown ↔
      ∀ e ∈ b.registry.toList, ∀ field ∈ e.scalarFields, ∀ root ∈ b.rootTypes,
        field.2.schemaName = root.title → ∃ f ∈ b.registry.toList, f.name = root.title := by
  refine forall₂_congr fun e he => forall₂_congr fun field hfield => ?_
  constructor
  · intro known root hroot same
    rw [same] at known
    obtain entity | ⟨f, _, input⟩ | builtIn | ⟨_, undeclared⟩ := known
    · exact entity
    · exact absurd input (title_not_mem_inputNames root f)
    · cases root <;> exact absurd builtIn (by decide)
    · refine absurd ?_ undeclared
      rw [typeNames_eq plain]
      exact List.mem_append_right _ (List.mem_map_of_mem hroot)
  · intro apart
    by_cases declared : field.2.schemaName ∈ b.typeNames
    · rw [typeNames_eq plain] at declared
      obtain own | root := List.mem_append.mp declared
      · obtain ⟨f, hf, own⟩ := List.mem_flatMap.mp own
        obtain same | input := List.mem_cons.mp own
        · exact same ▸ knows_entity hf
        · exact knows_input hf input
      · obtain ⟨root, hroot, same⟩ := List.mem_map.mp root
        obtain ⟨f, hf, named⟩ := apart root hroot same.symm
        exact same ▸ named ▸ knows_entity hf
    · exact .inr (.inr (.inr ⟨⟨e, he, field, hfield, rfl⟩, declared⟩))

/-- The entities can be declared side by side. -/
structure Declarable (b : Blueprint) : Prop where
  inputs : ∀ e ∈ b.registry.toList, ∀ f ∈ b.registry.toList, e.name ∉ inputNames f
  roots : ∀ e ∈ b.registry.toList, ∀ root ∈ b.rootTypes, e.name ≠ root.title
  shown : ∀ e ∈ b.registry.toList, e.hasInputs = true ∨ e.apiRelations ≠ []
  relations : ∀ e ∈ b.registry.toList, (e.apiRelations.map (·.apiName)).Nodup ∧
    ∀ a ∈ e.apiRelations, a.apiName ∉ e.scalarNames
  queries : b.options.queryOptions.areEnabled = true →
    ∀ e ∈ b.registry.toList, ∀ f ∈ b.registry.toList, e ≠ f →
      e.api.defaultQueries = true → f.api.defaultQueries = true → QueriesApart e f
  scalars : ∀ e ∈ b.registry.toList, ∀ field ∈ e.scalarFields, ∀ root ∈ b.rootTypes,
    field.2.schemaName ≠ root.title

/-- What is accepted makes a well-formed document exactly when it can be declared side by side. -/
theorem wellFormed_iff (accepted : ofEntities entities o = .ok b) (plain : b.options.Plain)
    (dictionaries : ∀ e ∈ entities, (Dict.keys e.fields).Nodup) :
    b.WellFormed ↔ b.Declarable := by
  have types := nodup_typeNames_iff accepted plain
  have fields := nodup_fieldNames_iff accepted plain dictionaries
  have mentions := (knows_mentions_iff accepted plain).trans (scalarsKnown_iff plain)
  constructor
  · rintro ⟨once, inhabited, distinct, known⟩
    obtain ⟨inputs, roots⟩ := types.mp once
    obtain ⟨relations, queries⟩ := fields.mp distinct
    refine ⟨inputs, roots, (fieldNames_ne_nil_iff accepted plain).mp inhabited, relations,
      queries, ?_⟩
    intro e he field hfield root hroot same
    obtain ⟨f, hf, named⟩ := mentions.mp known e he field hfield root hroot same
    exact roots f hf root hroot named
  · rintro ⟨inputs, roots, shown, relations, queries, scalars⟩
    refine ⟨types.mpr ⟨inputs, roots⟩, (fieldNames_ne_nil_iff accepted plain).mpr shown,
      fields.mpr ⟨relations, queries⟩, mentions.mpr ?_⟩
    intro e he field hfield root hroot same
    exact absurd same (scalars e he field hfield root hroot)

end Blueprint

/-- The names that a description of the entity gives. -/
def Entity.givenNames (e : Entity) : List String :=
  e.name :: Dict.keys e.fields ++ e.relations.filterMap (·.2.exposedAs) ++
    e.primaryField.toList ++ e.scalarFields.map (·.2.schemaName)

/-- Names as schemas have them: a letter or an underscore, then digits as well. -/
def Scan.isName (s : String) : Bool :=
  match s.toList with
  | [] => false
  | c :: rest => isNameStart c && rest.all isNameChar

namespace Catalog

open Blueprint Schema

theorem plain : blueprint.options.Plain := ⟨by decide +kernel, by decide +kernel, by decide +kernel⟩

theorem queriesApart : ∀ e ∈ blueprint.registry.toList, ∀ f ∈ blueprint.registry.toList, e ≠ f →
    QueriesApart e f := by
  have apart : QueriesApart category course := ⟨by decide +kernel, fun _ => by decide +kernel⟩
  have back : QueriesApart course category := ⟨by decide +kernel, fun _ => by decide +kernel⟩
  intro e he f hf different
  obtain rfl | rfl := List.mem_pair.mp he <;> obtain rfl | rfl := List.mem_pair.mp hf
  · exact absurd rfl different
  · exact apart
  · exact back
  · exact absurd rfl different

/-- The catalogue makes a well-formed document. -/
theorem wellFormed_catalog :
    Blueprint.ofEntities [category, course] {} = .ok blueprint ∧ blueprint.options.Plain ∧
    (∀ e ∈ [category, course], (Dict.keys e.fields).Nodup) ∧ blueprint.WellFormed := by
  have dictionaries : ∀ e ∈ [category, course], (Dict.keys e.fields).Nodup := by decide
  refine ⟨blueprint_accepted, plain, dictionaries,
    (wellFormed_iff blueprint_accepted plain dictionaries).mpr ?_⟩
  exact {
    inputs := by decide +kernel
    roots := by decide +kernel
    shown := by decide +kernel
    relations := by decide +kernel
    queries := fun _ e he f hf different _ _ => queriesApart e he f hf different
    scalars := by decide +kernel }

/-- A lesson has two fields that lead through one relation, which is shown as one of them. -/
def lesson : Entity where
  name := "Lesson"
  table := none
  fields := [("id", .scalar ⟨"integer"⟩), ("categoryId", .scalar ⟨"integer"⟩),
    ("category", .relation (some "toCategory")), ("topic", .relation (some "toCategory"))]
  relations :=
    [("toCategory", ⟨.one, "Category", ⟨"categoryId", "id"⟩, true, some "category"⟩)]
  api := {}

def lessons : Blueprint := ⟨⟨[("Category", category), ("Lesson", lesson)]⟩, .standard, {}⟩

/-- All names are valid, and the type of lessons declares one field twice. -/
theorem category_declared_twice :
    Blueprint.ofEntities [category, lesson] {} = .ok lessons ∧ lessons.options.Plain ∧
    (∀ e ∈ [category, lesson], (Dict.keys e.fields).Nodup) ∧
    (∀ e ∈ [category, lesson], ∀ name ∈ e.givenNames, Scan.isName name = true) ∧
    ¬ lessons.WellFormed := by
  refine ⟨rfl, plain, by decide, by decide +kernel, ?_⟩
  intro wellFormed
  have bare : lessons.options.Plain := plain
  have declared : objectBlock lessons.registry lessons.protocol lesson ∈ lessons.document :=
    (mem_document bare).mpr (.inl ⟨lesson, List.mem_pair.mpr (.inr rfl), .inl rfl⟩)
  exact absurd (wellFormed.distinct _ declared) (by decide +kernel)

end Catalog
end EntityGraph
