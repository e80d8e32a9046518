import Mathlib.Data.List.Induction
import EntityGraph.Proofs.Columns
import EntityGraph.Service.TypeSystem

/-!
The types that a schema document makes. They are registered one after the other, unless there is
no query type. Each carries what all definitions with its name hold, and a name that is used
somewhere is that of a registered type or built in: the names that nobody declares become scalars.
-/

namespace EntityGraph

/-- The type is the named one, or a list of it to any depth, and null may be ruled out anywhere. -/
inductive TypeRef.Mentions (name : String) : TypeRef → Prop
  | named : Mentions name (.named name)
  | list {item : TypeRef} : Mentions name item → Mentions name (.list item)
  | nonNull {type : TypeRef} : Mentions name type → Mentions name (.nonNull type)

theorem TypeRef.mentions_iff {name : String} {type : TypeRef} :
    type.Mentions name ↔ type.base = name := by
  constructor
  · intro h
    induction h with
    | named => rfl
    | list _ ih => exact ih
    | nonNull _ ih => exact ih
  · intro h
    induction type with
    | named own => exact h ▸ .named
    | list item ih => exact .list (ih h)
    | nonNull type ih => exact .nonNull (ih h)

namespace Schema.Definition

/-- A field, an argument of a field or an input field has the name in its type. -/
inductive Uses (name : String) : Definition → Prop
  | field {own : String} {fields : List Field} {f : Field} :
      f ∈ fields → f.type.Mentions name → Uses name (.object own fields)
  | argument {own : String} {fields : List Field} {f : Field} {i : Input} :
      f ∈ fields → i ∈ f.arguments → i.type.Mentions name → Uses name (.object own fields)
  | input {own : String} {fields : List Input} {i : Input} :
      i ∈ fields → i.type.Mentions name → Uses name (.input own fields)

def object? : Definition → Option (String × List Field)
  | .object name fields => some (name, fields)
  | _ => none

def input? : Definition → Option (String × List Input)
  | .input name fields => some (name, fields)
  | _ => none

def enum? : Definition → Option (String × List String)
  | .enum name values => some (name, values)
  | _ => none

def scalar? : Definition → Option String
  | .scalar name => some name
  | _ => none

/-- The name of the type that the definition declares. Interfaces and unions declare none. -/
def declared? : Definition → Option String
  | .object name _ | .input name _ | .enum name _ | .scalar name => some name
  | .interface _ | .union _ => none

end Schema.Definition

namespace Service

theorem eraseDups_concat (names : List String) (name : String) :
    (names ++ [name]).eraseDups =
      if name ∈ names then names.eraseDups else names.eraseDups ++ [name] := by
  by_cases present : name ∈ names <;>
    simp [List.eraseDups_append, List.removeAll, List.eraseDups_cons, present]

theorem foldl_addName_nil (names : List String) : names.foldl addName [] = names.eraseDups := by
  induction names using List.reverseRecOn with
  | nil => rfl
  | append_singleton names name ih =>
      rw [List.foldl_concat, ih, addName, eraseDups_concat]
      simp [List.mem_eraseDups]

theorem nodup_eraseDups (names : List String) : names.eraseDups.Nodup := by
  rw [← foldl_addName_nil]
  exact nodup_foldl_addName .nil

/-- Writing under one of the names changes what stands there. -/
theorem insert_map {α : Type} {names : List String} (distinct : names.Nodup) {key : String}
    (member : key ∈ names) (value : String → α) (v : α) :
    Dict.insert (names.map fun name => (name, value name)) key v =
      names.map fun name => (name, if name = key then v else value name) := by
  induction names with
  | nil => cases member
  | cons first rest ih =>
      obtain ⟨new, distinct⟩ := List.nodup_cons.mp distinct
      by_cases here : first = key
      · subst here
        have others : ∀ name ∈ rest, (name, value name) =
            (name, if name = first then v else value name) := by
          intro name member
          have other : name ≠ first := fun same => new (same ▸ member)
          rw [if_neg other]
        simpa [Dict.insert] using others
      · have below : key ∈ rest := (List.mem_cons.mp member).resolve_left (Ne.symm here)
        simpa [Dict.insert, here] using ih distinct below

section Merged

variable {α : Type} (parts : List (String × List α))

/-- What the parts with the name hold, in their order. -/
def underName (name : String) : List α := (parts.filter (·.1 = name)).flatMap (·.2)

/-- Under each name all that the parts with the name hold. The names stand as they come first. -/
def merged : Dict (List α) :=
  (Dict.keys parts).eraseDups.map fun name => (name, underName parts name)

theorem keys_merged : Dict.keys (merged parts) = (Dict.keys parts).eraseDups := by
  rw [Dict.keys, merged, List.map_map]
  exact List.map_id _

theorem underName_concat (name own : String) (more : List α) :
    underName (parts ++ [(own, more)]) name =
      underName parts name ++ if own = name then more else [] := by
  by_cases same : own = name <;> simp [underName, same]

theorem underName_of_not_mem {name : String} (absent : name ∉ Dict.keys parts) :
    underName parts name = [] := by
  have none : parts.filter (·.1 = name) = [] := by
    refine List.filter_eq_nil_iff.mpr ?_
    intro part member same
    exact absent (of_decide_eq_true same ▸ List.mem_map_of_mem member)
  rw [underName, none, List.flatMap_nil]

theorem getD_get?_merged (name : String) :
    (Dict.get? (merged parts) name).getD [] = underName parts name := by
  by_cases present : name ∈ Dict.keys parts
  · rw [merged, Dict.get?_map _ _ (List.mem_eraseDups.mpr present), Option.getD_some]
  · have absent : Dict.get? (merged parts) name = none := by
      rw [Dict.get?_eq_none_iff, keys_merged]
      exact fun h => present (List.mem_eraseDups.mp h)
    rw [absent, Option.getD_none, underName_of_not_mem parts present]

/-- One more part adds to what stands under its name. -/
theorem merged_concat (name : String) (more : List α) :
    merged (parts ++ [(name, more)]) = extend (merged parts) name more := by
  have keys : Dict.keys (parts ++ [(name, more)]) = Dict.keys parts ++ [name] := by
    simp [Dict.keys]
  rw [extend, getD_get?_merged]
  by_cases present : name ∈ Dict.keys parts
  · have member : name ∈ (Dict.keys parts).eraseDups := List.mem_eraseDups.mpr present
    rw [merged, merged, keys, eraseDups_concat, if_pos present,
      insert_map (nodup_eraseDups _) member]
    refine List.map_congr_left ?_
    intro own _
    by_cases same : own = name
    · subst same
      simp [underName_concat]
    · simp [underName_concat, same, Ne.symm same]
  · have absent : name ∉ Dict.keys (merged parts) := by
      rw [keys_merged]
      exact fun h => present (List.mem_eraseDups.mp h)
    rw [Dict.insert_of_not_mem absent, merged, merged, keys, eraseDups_concat, if_neg present,
      List.map_append]
    congr 1
    · refine List.map_congr_left ?_
      intro own member
      have other : name ≠ own := fun same => present (same ▸ List.mem_eraseDups.mp member)
      simp [underName_concat, other]
    · simp [underName_concat]

/-- Putting together loses nothing and adds nothing. -/
theorem exists_mem_merged {p : α → Prop} :
    (∃ entry ∈ merged parts, ∃ x ∈ entry.2, p x) ↔ ∃ part ∈ parts, ∃ x ∈ part.2, p x := by
  constructor
  · rintro ⟨entry, member, x, held, holds⟩
    obtain ⟨name, _, rfl⟩ := List.mem_map.mp member
    obtain ⟨part, found, held⟩ := List.mem_flatMap.mp held
    exact ⟨part, (List.mem_filter.mp found).1, x, held, holds⟩
  · rintro ⟨⟨name, items⟩, member, x, held, holds⟩
    have present : name ∈ Dict.keys parts := List.mem_map_of_mem member
    refine ⟨(name, underName parts name),
      List.mem_map_of_mem (List.mem_eraseDups.mpr present), x, ?_, holds⟩
    exact List.mem_flatMap.mpr ⟨_, List.mem_filter.mpr ⟨member, decide_eq_true rfl⟩, held⟩

end Merged

namespace Outline

open Schema.Definition

variable (ds : List Schema.Definition) {name : String}

/-- An outline holds what the definitions of each kind hold, put together by name. -/
theorem ofDefinitions_eq :
    ofDefinitions ds =
      ⟨merged (ds.filterMap object?), merged (ds.filterMap input?), merged (ds.filterMap enum?),
        ds.filterMap scalar?⟩ := by
  induction ds using List.reverseRecOn with
  | nil => rfl
  | append_singleton ds d ih =>
      rw [ofDefinitions, List.foldl_concat, ← ofDefinitions, ih]
      cases d <;>
        simp [add, List.filterMap_cons, object?, input?, enum?, scalar?, merged_concat]

theorem mem_fieldReferences {f : Schema.Field} :
    name ∈ fieldReferences f ↔
      f.type.Mentions name ∨ ∃ i ∈ f.arguments, i.type.Mentions name := by
  simp [fieldReferences, TypeRef.mentions_iff, eq_comm]

theorem mem_references_iff {o : Outline} :
    name ∈ o.references ↔
      (∃ entry ∈ o.objects, ∃ f ∈ entry.2, name ∈ fieldReferences f) ∨
        ∃ entry ∈ o.inputs, ∃ i ∈ entry.2, i.type.base = name := by
  simp only [references, List.mem_append, List.mem_flatMap, List.mem_map]

/-- What refers to the name in the outline refers to it in one of the definitions. -/
theorem mem_references : name ∈ (ofDefinitions ds).references ↔ ∃ d ∈ ds, d.Uses name := by
  rw [mem_references_iff, ofDefinitions_eq]
  simp only [exists_mem_merged, List.mem_filterMap]
  constructor
  · rintro (⟨part, ⟨d, member, isObject⟩, f, held, refers⟩ |
      ⟨part, ⟨d, member, isInput⟩, i, held, same⟩)
    · cases d <;> cases isObject
      obtain type | ⟨i, argument, type⟩ := mem_fieldReferences.mp refers
      · exact ⟨_, member, .field held type⟩
      · exact ⟨_, member, .argument held argument type⟩
    · cases d <;> cases isInput
      exact ⟨_, member, .input held (TypeRef.mentions_iff.mpr same)⟩
  · rintro ⟨d, member, uses⟩
    cases uses with
    | field held type =>
        exact .inl ⟨_, ⟨_, member, rfl⟩, _, held, mem_fieldReferences.mpr (.inl type)⟩
    | argument held argument type =>
        exact .inl ⟨_, ⟨_, member, rfl⟩, _, held,
          mem_fieldReferences.mpr (.inr ⟨_, argument, type⟩)⟩
    | input held type =>
        exact .inr ⟨_, ⟨_, member, rfl⟩, _, held, TypeRef.mentions_iff.mp type⟩

theorem mem_keys_merged {α : Type} {part? : Schema.Definition → Option (String × List α)} :
    name ∈ Dict.keys (merged (ds.filterMap part?)) ↔
      ∃ d ∈ ds, (part? d).map (·.1) = some name := by
  rw [keys_merged, List.mem_eraseDups, Dict.keys, List.map_filterMap, List.mem_filterMap]

theorem mem_declared :
    name ∈ (ofDefinitions ds).declared ↔ ∃ d ∈ ds, d.declared? = some name := by
  have each : ∀ d : Schema.Definition, d.declared? = some name ↔
      (((d.object?.map (·.1) = some name ∨ d.input?.map (·.1) = some name) ∨
        d.enum?.map (·.1) = some name) ∨ d.scalar? = some name) := by
    intro d
    cases d <;> simp [declared?, object?, input?, enum?, scalar?]
  rw [ofDefinitions_eq]
  simp only [declared, List.mem_append, mem_keys_merged, List.mem_filterMap, each, and_or_left,
    exists_or]

theorem mem_undeclared {o : Outline} :
    name ∈ o.undeclared ↔
      name ∈ o.references ∧ name ∉ o.declared ∧ name ∉ TypeTable.builtIns := by
  refine mem_foldl_addName.trans ?_
  simp

theorem nodup_undeclared (o : Outline) : o.undeclared.Nodup := nodup_foldl_addName .nil

/-- The types of an outline in the order in which they are registered. -/
def entries (o : Outline) : List (String × TypeDefinition) :=
  o.objects.map (fun (name, fields) => (name, .object fields)) ++
  o.inputs.map (fun (name, fields) => (name, .input fields)) ++
  o.enums.map (fun (name, values) => (name, .enum values)) ++
  o.scalars.map (fun name => (name, .scalar))

theorem entries_closed (o : Outline) :
    o.closed.entries = o.entries ++ o.undeclared.map fun name => (name, .scalar) := by
  simp [entries, closed]

theorem keys_entries (o : Outline) : Dict.keys o.entries = o.declared := by
  simp [entries, declared, Dict.keys, Function.comp_def]

end Outline

namespace TypeSystem

/-- What registers types one after the other and may fail. What is registered by then stays. -/
abbrev Building := ExceptT SchemaError (StateM (List (String × TypeDefinition)))

def register (entry : String × TypeDefinition) : Building Unit := modify (· ++ [entry])

def registerAll (o : Outline) : Building Unit := do
  o.objects.forM fun (name, fields) => register (name, .object fields)
  o.inputs.forM fun (name, fields) => register (name, .input fields)
  o.enums.forM fun (name, values) => register (name, .enum values)
  o.scalars.forM fun name => register (name, .scalar)

/-- The type system of the definitions, with the types that are registered on the way. -/
def building (ds : List Schema.Definition) : Building TypeSystem := do
  let outline := Outline.ofDefinitions ds
  if !outline.objects.contains "Query" then throw .noQueryType
  registerAll outline.closed
  let table : TypeTable := Dict.ofList (← get)
  let hasMutation := outline.objects.contains "Mutation"
  if table.isSchema && table.isObject "Query" && (!hasMutation || table.isObject "Mutation") then
    return ⟨table, hasMutation⟩
  else throw .invalidDocument

theorem run_bind_of_ok {α β : Type} {x : Building α} {f : α → Building β}
    {log after : List (String × TypeDefinition)} {a : α} (h : x.run.run log = (.ok a, after)) :
    (x >>= f).run.run log = (f a).run.run after := by
  have first : x log = (.ok a, after) := h
  simp only [ExceptT.run, StateT.run, bind, ExceptT.bind, ExceptT.mk, StateT.bind, first]
  rfl

theorem run_forM_register {α : Type} (items : List α) (entry : α → String × TypeDefinition)
    (log : List (String × TypeDefinition)) :
    (items.forM fun x => register (entry x)).run.run log = (.ok (), log ++ items.map entry) := by
  induction items generalizing log with
  | nil => simp; rfl
  | cons x rest ih =>
      have step : (register (entry x)).run.run log = (.ok (), log ++ [entry x]) := rfl
      refine (run_bind_of_ok step).trans ?_
      rw [ih, List.append_assoc, List.singleton_append, List.map_cons]

theorem run_registerAll (o : Outline) (log : List (String × TypeDefinition)) :
    (registerAll o).run.run log = (.ok (), log ++ o.entries) := by
  refine (run_bind_of_ok (run_forM_register _ _ log)).trans ?_
  refine (run_bind_of_ok (run_forM_register _ _ _)).trans ?_
  refine (run_bind_of_ok (run_forM_register _ _ _)).trans ?_
  refine (run_forM_register _ _ _).trans ?_
  simp [Outline.entries]

/-- Without a query type nothing is registered, and with one all types are, whether they make a
schema or not. -/
theorem run_building (ds : List Schema.Definition) :
    (building ds).run.run [] =
      (ofDefinitions ds,
        if (Outline.ofDefinitions ds).objects.contains "Query" then
          (Outline.ofDefinitions ds).closed.entries
        else []) := by
  unfold building ofDefinitions
  by_cases query : (Outline.ofDefinitions ds).objects.contains "Query"
  · have table : (Outline.ofDefinitions ds).closed.table =
        Dict.ofList (Outline.ofDefinitions ds).closed.entries := rfl
    simp only [query, Bool.not_true, Bool.false_eq_true, if_false, if_true, table]
    refine (run_bind_of_ok (run_registerAll _ [])).trans ?_
    refine (run_bind_of_ok (x := get) rfl).trans ?_
    rw [List.nil_append]
    split
    · rfl
    · rfl
  · simp only [query, Bool.not_false, if_true]
    rfl

open Schema.Definition

/-- What is registered for the definitions of a document where the names in `added` are used and
declared by none. -/
structure Registered (ds : List Schema.Definition) (added : List String)
    (registered : List (String × TypeDefinition)) : Prop where
  types : registered =
    (merged (ds.filterMap object?)).map (fun (name, fields) => (name, .object fields)) ++
    (merged (ds.filterMap input?)).map (fun (name, fields) => (name, .input fields)) ++
    (merged (ds.filterMap enum?)).map (fun (name, values) => (name, .enum values)) ++
    (ds.filterMap scalar?).map (fun name => (name, .scalar)) ++
    added.map (fun name => (name, .scalar))
  added_iff : ∀ name, name ∈ added ↔
    (∃ d ∈ ds, d.Uses name) ∧ (∀ d ∈ ds, d.declared? ≠ some name) ∧
      name ∉ TypeTable.builtIns
  once : ∀ name ∈ added, registered.filter (·.1 = name) = [(name, .scalar)]
  closed : ∀ name, (∃ d ∈ ds, d.Uses name) →
    name ∈ Dict.keys registered ∨ name ∈ TypeTable.builtIns

theorem registered_entries (ds : List Schema.Definition) :
    Registered ds (Outline.ofDefinitions ds).undeclared
      (Outline.ofDefinitions ds).closed.entries where
  types := by
    rw [Outline.entries_closed, Outline.entries, Outline.ofDefinitions_eq]
  added_iff := by
    intro name
    rw [Outline.mem_undeclared, Outline.mem_references, Outline.mem_declared]
    simp
  once := by
    intro name member
    set o := Outline.ofDefinitions ds
    have others : o.entries.filter (·.1 = name) = [] := by
      refine List.filter_eq_nil_iff.mpr ?_
      intro entry held same
      refine (Outline.mem_undeclared.mp member).2.1 ?_
      rw [← Outline.keys_entries, ← of_decide_eq_true same]
      exact List.mem_map_of_mem held
    have single : o.undeclared.filter (· = name) = [name] := by
      rw [List.filter_eq, List.count_eq_one_of_mem o.nodup_undeclared member]
      rfl
    rw [Outline.entries_closed, List.filter_append, others, List.nil_append, List.filter_map]
    exact congrArg (List.map fun n => (n, TypeDefinition.scalar)) single
  closed := by
    intro name uses
    by_cases builtIn : name ∈ TypeTable.builtIns
    · exact .inr builtIn
    · refine .inl ?_
      rw [Outline.entries_closed, Dict.keys, List.map_append, List.mem_append, ← Dict.keys,
        Outline.keys_entries]
      by_cases declared : name ∈ (Outline.ofDefinitions ds).declared
      · exact .inl declared
      · have added : name ∈ (Outline.ofDefinitions ds).undeclared :=
          Outline.mem_undeclared.mpr ⟨(Outline.mem_references ds).mpr uses, declared, builtIn⟩
        exact .inr (by simpa using added)

theorem contains_query_iff (ds : List Schema.Definition) :
    (Outline.ofDefinitions ds).objects.contains "Query" = true ↔
      ∃ fields, .object "Query" fields ∈ ds := by
  rw [Outline.ofDefinitions_eq, Dict.contains_iff_mem_keys, Outline.mem_keys_merged]
  constructor
  · rintro ⟨d, member, named⟩
    cases d <;> cases named
    exact ⟨_, member⟩
  · rintro ⟨fields, member⟩
    exact ⟨_, member, rfl⟩

/-- With a query type the registered types are those of the system, if they make one. -/
theorem ofDefinitions_cases {ds : List Schema.Definition}
    (query : (Outline.ofDefinitions ds).objects.contains "Query" = true) :
    (∃ system, ofDefinitions ds = .ok system ∧
      system.types = Dict.ofList (Outline.ofDefinitions ds).closed.entries) ∨
    ofDefinitions ds = .error .invalidDocument := by
  unfold ofDefinitions
  simp only [query, Bool.not_true, Bool.false_eq_true, if_false]
  split
  · exact .inl ⟨_, rfl, rfl⟩
  · exact .inr rfl

/-- Without a definition of the query type the building stops before anything is registered. With
one, all that the definitions hold is registered under their names, and each name that they use is
the name of a registered type or built in: those that none of them declares are added as scalars,
each of them once. -/
theorem building_closed (ds : List Schema.Definition) :
    let built := (building ds).run.run []
    built.1 = ofDefinitions ds ∧
    ((¬ ∃ fields, .object "Query" fields ∈ ds) →
      built.1 = .error .noQueryType ∧ built.2 = []) ∧
    ((∃ fields, .object "Query" fields ∈ ds) →
      built.1 ≠ .error .noQueryType ∧
      (∀ system, built.1 = .ok system → system.types = Dict.ofList built.2) ∧
      ∃ added, Registered ds added built.2) := by
  rw [run_building, ← contains_query_iff]
  refine ⟨rfl, ?_, ?_⟩
  · intro absent
    have stops : ofDefinitions ds = .error .noQueryType := by
      rw [ofDefinitions, if_pos (by simpa using absent)]
      rfl
    exact ⟨stops, if_neg absent⟩
  · intro query
    simp only [query, if_true]
    obtain ⟨system, built, types⟩ | failed := ofDefinitions_cases query
    · refine ⟨by rw [built]; exact nofun, ?_, _, registered_entries ds⟩
      intro own same
      obtain rfl : system = own := Except.ok.inj (built.symm.trans same)
      exact types
    · rw [failed]
      exact ⟨nofun, nofun, _, registered_entries ds⟩

end TypeSystem

end Service

namespace Catalog

open Service

/-- Courses are queried in two definitions; nobody declares the type of their dates. -/
def datedCourses : List Schema.Definition :=
  [.object "Query" [⟨"courses", [⟨"since", .nonNull (.named "Date"), none⟩],
      .list (.nonNull (.named "Course"))⟩],
    .interface "Node",
    .object "Course" [⟨"id", [], .named "Int"⟩, ⟨"dates", [], .list (.list (.named "Date"))⟩,
      ⟨"level", [], .named "Level"⟩],
    .enum "Level" ["FIRST"],
    .object "Query" [⟨"node", [], .named "Node"⟩],
    .enum "Level" ["SECOND"]]

theorem building_closed_datedCourses :
    (∃ fields, .object "Query" fields ∈ datedCourses) ∧
    ∃ added, TypeSystem.Registered datedCourses added
      ((TypeSystem.building datedCourses).run.run []).2 :=
  have query : ∃ fields, .object "Query" fields ∈ datedCourses := ⟨_, .head _⟩
  ⟨query, ((TypeSystem.building_closed datedCourses).2.2 query).2.2⟩

example : (Outline.ofDefinitions datedCourses).undeclared = ["Date", "Node"] := by decide

end Catalog
end EntityGraph
