import EntityGraph.Proofs.IssuedStatements

/-!
Calls that are alike issue texts that are alike. Two calls are alike when a renaming takes the
names of the one to those of the other and they have values in the same places. Their texts differ
inside of quotes only; and where the names are the same, they do not differ.
-/

namespace EntityGraph

def Field.scalar? : Field → Option ScalarType
  | .scalar t => some t
  | .relation _ => none

namespace Entity

/-- The fields by name, each with its type if it is a scalar. -/
def columnTypes (e : Entity) : Dict (Option ScalarType) := e.fields.map fun c => (c.1, c.2.scalar?)

/-- What statements name of the entities is the same but for the renaming. -/
structure Renamed (f : String → String) (e e' : Entity) : Prop where
  table : e'.tableName = f e.tableName
  fields : e'.columnTypes = e.columnTypes.map fun c => (f c.1, c.2)
  primary : e'.primaryField = e.primaryField.map f

variable {f : String → String} {e e' : Entity}

theorem scalarFields_eq (e : Entity) :
    e.scalarFields = e.columnTypes.filterMap fun c => c.2.map fun t => (c.1, t) := by
  rw [columnTypes, List.filterMap_map]
  refine List.filterMap_congr fun c _ => ?_
  obtain ⟨name, field⟩ := c
  cases field <;> rfl

theorem hasScalar_eq (e : Entity) (name : String) :
    e.hasScalar name = (Dict.get? e.columnTypes name).join.isSome := by
  rw [hasScalar, scalarType?, columnTypes]
  induction e.fields with
  | nil => rfl
  | cons c rest ih =>
      obtain ⟨own, field⟩ := c
      by_cases same : own = name
      · cases field <;> simp [Dict.get?, same, Field.scalar?]
      · simpa [Dict.get?, same] using ih

theorem Renamed.scalarFields (h : e.Renamed f e') :
    e'.scalarFields = e.scalarFields.map fun c => (f c.1, c.2) := by
  rw [scalarFields_eq, h.fields, scalarFields_eq, List.filterMap_map, List.map_filterMap]
  refine List.filterMap_congr fun c _ => ?_
  obtain ⟨name, type⟩ := c
  cases type <;> rfl

theorem Renamed.scalarNames (h : e.Renamed f e') : e'.scalarNames = e.scalarNames.map f := by
  rw [Entity.scalarNames, h.scalarFields, List.map_map, Entity.scalarNames, List.map_map]
  rfl

theorem Renamed.hasScalar (h : e.Renamed f e') (injective : Function.Injective f) (name : String) :
    e'.hasScalar (f name) = e.hasScalar name := by
  rw [hasScalar_eq, hasScalar_eq, h.fields]
  induction e.columnTypes with
  | nil => rfl
  | cons c rest ih =>
      by_cases same : c.1 = name
      · simp [Dict.get?, same]
      · simpa [Dict.get?, same, injective.eq_iff] using ih

end Entity

namespace Sql

open Piece

theorem Piece.map_image_separated (f : String → String) (separator : String)
    (items : List (List Piece)) :
    (separated separator items).map (image f) =
      separated separator (items.map (List.map (image f))) := by
  induction items with
  | nil => rfl
  | cons ps rest ih =>
      cases rest with
      | nil => rfl
      | cons next rest =>
          rw [separated_cons_cons, List.map_append, List.map_cons, ih]
          rfl

theorem Piece.map_image_names (f : String → String) (ns : List String) :
    (names ns).map (image f) = names (ns.map f) := by
  rw [names, map_image_separated, names, List.map_map, List.map_map]
  rfl

/-- Of values only their number is left. -/
theorem Piece.map_image_values (f : String → String) (vs : List Json) :
    (values vs).map (image f) = values (List.replicate vs.length .null) := by
  rw [values, map_image_separated, values, List.map_map, List.map_replicate, ← List.map_const]
  rfl

namespace Statement

variable {f : String → String}

theorem alike_createTable (f : String → String) (table : String) (columns : List ColumnDef) :
    (createTable table columns).Alike f
      (createTable (f table) (columns.map fun c => { c with name := f c.name })) := by
  simp [Alike, pieces, columnPieces, map_image_separated, ColumnDef.pieces, image,
    Function.comp_def]

variable {values values' : List (String × Json)}

theorem length_of_keys (keys : Dict.keys values' = (Dict.keys values).map f) :
    values'.length = values.length := by
  simpa [Dict.keys] using congrArg List.length keys

theorem map_image_assignmentPieces (f : String → String) (values : List (String × Json)) :
    (assignmentPieces values).map (image f) =
      separated ", " (((Dict.keys values).map f).map fun n =>
        [name n, words " = ", value .null]) := by
  rw [assignmentPieces, map_image_separated, Dict.keys, List.map_map, List.map_map, List.map_map]
  rfl

theorem map_image_keyPieces (f : String → String) (column : String) (key : Json) :
    (keyPieces column key).map (image f) = keyPieces (f column) .null := rfl

theorem pieces_insert (table : String) (values : List (String × Json)) (present : values ≠ [])
    (returning : List String) : (insert table values returning).pieces =
      [words "INSERT INTO ", name table, words " ("] ++ names (Dict.keys values) ++
        [words ") VALUES ("] ++ Piece.values (values.map (·.2)) ++ [words ") RETURNING "] ++
        names returning := by
  cases values with
  | nil => exact absurd rfl present
  | cons v rest => rfl

theorem alike_insert (keys : Dict.keys values' = (Dict.keys values).map f) (table : String)
    (returning : List String) :
    (insert table values returning).Alike f (insert (f table) values' (returning.map f)) := by
  have length := length_of_keys keys
  by_cases present : values = []
  · subst present
    obtain rfl := List.length_eq_zero_iff.mp length
    simp [Alike, pieces, image, map_image_names]
  · have present' : values' ≠ [] := by
      rintro rfl
      exact present (List.length_eq_zero_iff.mp length.symm)
    rw [Alike, pieces_insert _ _ present, pieces_insert _ _ present']
    simp only [List.map_append, List.map_cons, List.map_nil, image, map_image_names,
      map_image_values, List.length_map, length, keys, List.map_id, id_eq]

theorem alike_update (keys : Dict.keys values' = (Dict.keys values).map f) (table column : String)
    (key key' : Json) (returning : List String) :
    (update table values column key returning).Alike f
      (update (f table) values' (f column) key' (returning.map f)) := by
  have length := length_of_keys keys
  cases values with
  | nil =>
      obtain rfl := List.length_eq_zero_iff.mp length
      simp [Alike, pieces, image, map_image_names, map_image_keyPieces]
  | cons v rest =>
      cases values' with
      | nil => cases length
      | cons v' rest' =>
          simp only [Alike, pieces, List.map_append, List.map_cons, List.map_nil, image,
            map_image_names, map_image_keyPieces, map_image_assignmentPieces, keys, List.map_id,
            id_eq]

theorem alike_delete (f : String → String) (table column : String) (key key' : Json) :
    (delete table column key).Alike f (delete (f table) (f column) key') := rfl

end Statement

/-- What is left of a condition without its values. -/
def Condition.outline (f : String → String) (c : Condition) : List Piece := c.pieces.map (image f)

/-- The conditions have the same outlines but for the names. -/
def ConditionsAlike (f : String → String) (cs cs' : List Condition) : Prop :=
  cs'.map (Condition.outline id) = cs.map (Condition.outline f)

theorem Select.alike {f : String → String} {s s' : Select} (table : s'.table = f s.table)
    (columns : s'.columns = s.columns.map f)
    (conditions : ConditionsAlike f s.conditions s'.conditions)
    (order : s'.order = s.order.map fun k => { k with field := f k.field })
    (limit : s'.limit = s.limit) (offset : s'.offset = s.offset) :
    (Statement.select s).Alike f (.select s') := by
  have selection : (if s'.columns.isEmpty then [words "SELECT 1"]
      else words "SELECT " :: names s'.columns).map (image id) =
      (if s.columns.isEmpty then [words "SELECT 1"]
        else words "SELECT " :: names s.columns).map (image f) := by
    rw [columns, List.isEmpty_map]
    split
    · rfl
    · rw [List.map_cons, List.map_cons, map_image_names, map_image_names, List.map_id]
      rfl
  have filters : (if s'.conditions.isEmpty then []
      else words " WHERE " :: separated " AND " (s'.conditions.map Condition.pieces)).map
        (image id) =
      (if s.conditions.isEmpty then []
        else words " WHERE " :: separated " AND " (s.conditions.map Condition.pieces)).map
          (image f) := by
    have none : s'.conditions.isEmpty = s.conditions.isEmpty := by
      simpa only [List.isEmpty_map] using congrArg List.isEmpty conditions
    rw [none]
    split
    · rfl
    · rw [List.map_cons, List.map_cons, map_image_separated, map_image_separated, List.map_map,
        List.map_map]
      exact congrArg (fun items => words " WHERE " :: separated " AND " items) conditions
  have sorting : (if s'.order.isEmpty then [] else words " ORDER BY " :: orderPieces s'.order).map
        (image id) =
      (if s.order.isEmpty then [] else words " ORDER BY " :: orderPieces s.order).map
        (image f) := by
    rw [order, List.isEmpty_map]
    split
    · rfl
    · rw [orderPieces, orderPieces, List.map_cons, List.map_cons, map_image_separated,
        map_image_separated, List.map_map, List.map_map, List.map_map]
      rfl
  have paging : (pagePieces s'.limit s'.offset).map (image id) =
      (pagePieces s.limit s.offset).map (image f) := by
    rw [limit, offset]
    obtain nothing | ⟨w, said, _⟩ := pagePieces_cases s.limit s.offset
    · rw [nothing]
      rfl
    · rw [said]
      rfl
  simp only [Statement.Alike, Statement.pieces, pieces, List.map_append, selection, filters,
    sorting, paging, List.map_cons, List.map_nil, image, table, id_eq]

end Sql

/-- The predicates have the same operator on columns of which one is renamed to the other. Lists
are as long, and `isNull` asks for the same. -/
structure Predicate.Alike (f : String → String) (p p' : Predicate) : Prop where
  field : p'.field = f p.field
  op : p'.op = p.op
  length : p.op = .isIn ∨ p.op = .notIn → p'.value.asList.length = p.value.asList.length
  asked : p.op = .isNull → (p'.value.bool? = some false ↔ p.value.bool? = some false)

/-- Keys of a column, and as many keys of the column under its new name. -/
def KeysAlike (f : String → String) (key key' : Option KeyFilter) : Prop :=
  key'.map (fun k => (k.column, k.keys.length)) = key.map fun k => (f k.column, k.keys.length)

structure LevelQuery.Alike (f : String → String) (q q' : LevelQuery) : Prop where
  entity : q.entity.Renamed f q'.entity
  columns : q'.columns = q.columns.map f
  predicates : List.Forall₂ (Predicate.Alike f) q.predicates q'.predicates
  key : KeysAlike f q.key q'.key
  order : q'.order = q.order.map fun k => { k with field := f k.field }
  limit : q'.limit = q.limit
  offset : q'.offset = q.offset

namespace Sql

open Piece

variable {f : String → String}

theorem isEmpty_of_length {vs vs' : List Json} (length : vs'.length = vs.length) :
    vs'.isEmpty = vs.isEmpty := by
  rw [Bool.eq_iff_iff, List.isEmpty_iff_length_eq_zero, List.isEmpty_iff_length_eq_zero, length]

theorem outline_isIn (column : String) {vs vs' : List Json} (length : vs'.length = vs.length) :
    (Condition.isIn (f column) vs').outline id = (Condition.isIn column vs).outline f := by
  simp [Condition.outline, Condition.pieces, map_image_values, image, length]

theorem outline_notIn (column : String) {vs vs' : List Json} (length : vs'.length = vs.length) :
    (Condition.notIn (f column) vs').outline id = (Condition.notIn column vs).outline f := by
  simp [Condition.outline, Condition.pieces, map_image_values, image, length]

/-- The condition of a predicate is alike as well, if it has one. -/
theorem outline_ofPredicate? {p p' : Predicate} (h : p.Alike f p') :
    (Condition.ofPredicate? p').map (Condition.outline id) =
      (Condition.ofPredicate? p).map (Condition.outline f) := by
  obtain ⟨field, op, value⟩ := p
  obtain ⟨field', op', value'⟩ := p'
  obtain ⟨sameField, sameOp, length, asked⟩ := h
  dsimp only at sameField sameOp length asked
  subst sameField sameOp
  cases op' with
  | isIn =>
      have length := length (.inl rfl)
      simp only [Condition.ofPredicate?, isEmpty_of_length length]
      split
      · rfl
      · exact congrArg some (outline_isIn field length)
  | notIn =>
      have length := length (.inr rfl)
      simp only [Condition.ofPredicate?, isEmpty_of_length length]
      split
      · rfl
      · exact congrArg some (outline_notIn field length)
  | isNull =>
      simp only [Condition.ofPredicate?, asked rfl]
      split <;> rfl
  | eq | notEq | gt | gte | lt | lte | like | likeNoCase => rfl

end Sql

namespace SqlStore

open Sql

variable {f : String → String} {q q' : LevelQuery}

theorem conditionsOf_alike (injective : Function.Injective f) (h : q.Alike f q') :
    ConditionsAlike f (conditionsOf q) (conditionsOf q') := by
  have predicates := h.predicates
  unfold ConditionsAlike conditionsOf
  rw [List.map_filterMap, List.map_filterMap]
  generalize q.predicates = ps at predicates ⊢
  generalize q'.predicates = ps' at predicates ⊢
  induction predicates with
  | nil => rfl
  | @cons p p' rest rest' alike _ ih =>
      have declared : q'.entity.hasScalar p'.field = q.entity.hasScalar p.field := by
        rw [alike.field, h.entity.hasScalar injective]
      rw [List.filter_cons, List.filter_cons, declared]
      split
      · simp only [List.filterMap_cons, outline_ofPredicate? alike, ih]
      · exact ih

theorem orderOf_alike (injective : Function.Injective f) (h : q.Alike f q') :
    orderOf q' = (orderOf q).map fun k => { k with field := f k.field } := by
  rw [orderOf, h.order, List.filter_map, orderOf]
  refine congrArg _ (List.filter_congr fun k _ => ?_)
  exact h.entity.hasScalar injective k.field

theorem keysAlike_none : KeysAlike f none none := rfl

theorem keysAlike_some {column : String} {keys keys' : List Json}
    (length : keys'.length = keys.length) :
    KeysAlike f (some ⟨column, keys⟩) (some ⟨f column, keys'⟩) := by
  simp [KeysAlike, length]

theorem selectOf_alike (injective : Function.Injective f) (h : q.Alike f q')
    {key key' : Option KeyFilter} (keyed : KeysAlike f key key') {columns : List String}
    (paged : Bool) : (Statement.select (selectOf q key columns paged)).Alike f
      (.select (selectOf q' key' (columns.map f) paged)) := by
  refine Select.alike h.entity.table rfl ?_ (orderOf_alike injective h) ?_ ?_
  · have filters := conditionsOf_alike injective h
    cases key with
    | none =>
        obtain rfl := Option.map_eq_none_iff.mp keyed
        exact filters
    | some k =>
        obtain ⟨k', rfl, same⟩ := Option.map_eq_some_iff.mp keyed
        obtain ⟨column, length⟩ := Prod.mk.inj same
        have first : (Condition.isIn k'.column k'.keys).outline id =
            (Condition.isIn k.column k.keys).outline f := by
          rw [column]
          exact outline_isIn k.column length
        exact congrArg₂ List.cons first filters
  · simp only [selectOf, h.limit]
  · simp only [selectOf, h.offset]

theorem orderedColumns_alike (injective : Function.Injective f) (h : q.Alike f q') :
    orderedColumns q' = (orderedColumns q).map f := by
  have added (names start : List String) :
      (names.map f).foldl addName (start.map f) = (names.foldl addName start).map f := by
    induction names generalizing start with
    | nil => rfl
    | cons name rest ih =>
        have first : addName (start.map f) (f name) = (addName start name).map f := by
          have present : (start.map f).contains (f name) = start.contains name := by
            rw [Bool.eq_iff_iff, List.contains_iff_mem, List.contains_iff_mem,
              List.mem_map_of_injective injective]
          rw [addName, present, addName]
          split
          · rfl
          · rw [List.map_append]
            rfl
        rw [List.map_cons, List.foldl_cons, first, ih]
        rfl
  rw [orderedColumns, orderOf_alike injective h, h.columns, List.map_map, orderedColumns, ← added,
    List.map_map]
  rfl

/-- How a list is cut depends on its length only. -/
theorem batches_alike {α : Type} (size fuel : Nat) {xs ys : List α}
    (length : ys.length = xs.length) :
    List.Forall₂ (fun part part' => part'.length = part.length) (batches size fuel xs)
      (batches size fuel ys) := by
  induction fuel generalizing xs ys with
  | zero => exact .nil
  | succ fuel ih =>
      cases xs with
      | nil =>
          obtain rfl := List.length_eq_zero_iff.mp length
          exact .nil
      | cons x xs =>
          cases ys with
          | nil => cases length
          | cons y ys =>
              refine .cons ?_ (ih ?_)
              · rw [List.length_take, List.length_take, length]
              · rw [List.length_drop, List.length_drop, length]

/-- The statements that are planned for queries that are alike, are alike one by one. -/
theorem plannedFetch_alike (injective : Function.Injective f) (h : q.Alike f q') {st st' : SqlStore}
    (sizes : st'.batchSize = st.batchSize) :
    List.Forall₂ (Statement.Alike f) (st.plannedFetch q) (st'.plannedFetch q') := by
  have keyed := h.key
  cases hkey : q.key with
  | none =>
      rw [hkey] at keyed
      have none' := Option.map_eq_none_iff.mp keyed
      simp only [plannedFetch, hkey, none', h.columns]
      exact .cons (selectOf_alike injective h keysAlike_none true) .nil
  | some k =>
      rw [hkey] at keyed
      obtain ⟨k', hkey', same⟩ := Option.map_eq_some_iff.mp keyed
      obtain ⟨column, length⟩ := Prod.mk.inj same
      simp only [plannedFetch, hkey, hkey', sizes, length, isEmpty_of_length length]
      split
      · exact .nil
      · split
        · rw [orderedColumns_alike injective h, List.forall₂_map_left_iff,
            List.forall₂_map_right_iff]
          refine (batches_alike _ _ length).imp fun part part' cut => ?_
          rw [column]
          exact selectOf_alike injective h (keysAlike_some cut) false
        · rw [h.columns]
          refine .cons (selectOf_alike injective h ?_ true) .nil
          simp [KeysAlike, column, length]

/-- The calls are of the same kind, on entities of which one is renamed to the other, and have
values for the same columns. -/
inductive Call.Alike (f : String → String) (st st' : SqlStore) : Call → Call → Prop
  | fetch {q q' : LevelQuery} : q.Alike f q' → Alike f st st' (.fetch q) (.fetch q')
  | insert {name name' : String} {e e' : Entity} {row row' : Row} :
      st.registry.get? name = some e → st'.registry.get? name' = some e' → e.Renamed f e' →
      Dict.keys row' = (Dict.keys row).map f →
      Alike f st st' (.insert name row) (.insert name' row')
  | patch {name name' : String} {e e' : Entity} {key key' : Json} {row row' : Row} :
      st.registry.get? name = some e → st'.registry.get? name' = some e' → e.Renamed f e' →
      Dict.keys row' = (Dict.keys row).map f →
      Alike f st st' (.patch name key row) (.patch name' key' row')
  | delete {name name' : String} {e e' : Entity} {key key' : Json} :
      st.registry.get? name = some e → st'.registry.get? name' = some e' → e.Renamed f e' →
      Alike f st st' (.delete name key) (.delete name' key')
  | createTable {e e' : Entity} :
      e.Renamed f e' → Alike f st st' (.createTable e) (.createTable e')

theorem keys_declaredValues (e : Entity) (row : Row) :
    Dict.keys (declaredValues e row) = (Dict.keys row).filter e.hasScalar := by
  rw [Dict.keys, declaredValues, Dict.keys, List.filter_map]
  rfl

theorem keys_declaredValues_alike (injective : Function.Injective f) {e e' : Entity}
    (renamed : e.Renamed f e') {row row' : Row} (keys : Dict.keys row' = (Dict.keys row).map f) :
    Dict.keys (declaredValues e' row') = (Dict.keys (declaredValues e row)).map f := by
  rw [keys_declaredValues, keys, List.filter_map, keys_declaredValues]
  exact congrArg _ (List.filter_congr fun name _ => renamed.hasScalar injective name)

theorem columnDefs_alike (injective : Function.Injective f) {e e' : Entity}
    (renamed : e.Renamed f e') :
    columnDefs e' = (columnDefs e).map fun c => { c with name := f c.name } := by
  rw [columnDefs, renamed.scalarFields, columnDefs, List.map_map, List.map_map]
  refine List.map_congr_left fun c _ => ?_
  have primary : e'.primaryField = some (f c.1) ↔ e.primaryField = some c.1 := by
    rw [renamed.primary]
    cases e.primaryField <;> simp [injective.eq_iff]
  simp [primary]

theorem planned_alike (injective : Function.Injective f) {st st' : SqlStore}
    (sizes : st'.batchSize = st.batchSize) {call call' : Call}
    (h : Call.Alike f st st' call call') :
    List.Forall₂ (Statement.Alike f) (st.planned call) (st'.planned call') := by
  cases h with
  | fetch alike => exact plannedFetch_alike injective alike sizes
  | insert known known' renamed keys =>
      simp only [planned, known, known', Option.toList_some, List.flatMap_singleton, renamed.table,
        renamed.scalarNames]
      have written := keys_declaredValues_alike injective renamed keys
      exact .cons (Statement.alike_insert written _ _) .nil
  | @patch _ _ e e' _ _ _ _ known known' renamed keys =>
      simp only [planned, known, known', Option.toList_some, List.flatMap_singleton, renamed.table,
        renamed.scalarNames, renamed.primary]
      cases e.primaryField with
      | none => exact .nil
      | some primary =>
          have declared := keys_declaredValues_alike injective renamed keys
          exact .cons (Statement.alike_update declared _ _ _ _ _) .nil
  | @delete _ _ e e' _ _ known known' renamed =>
      simp only [planned, known, known', Option.toList_some, List.flatMap_singleton, renamed.table,
        renamed.primary]
      cases e.primaryField with
      | none => exact .nil
      | some primary => exact .cons (Statement.alike_delete f _ _ _ _) .nil
  | @createTable e e' renamed =>
      have inputs : e'.hasInputs = e.hasInputs := by
        rw [Entity.hasInputs, renamed.scalarFields, List.isEmpty_map]
        rfl
      simp only [planned, inputs]
      split
      · rw [createTable, createTable, renamed.table, columnDefs_alike injective renamed]
        exact .cons (Statement.alike_createTable f _ _) .nil
      · exact .nil

/-- The texts can be read, and the second is the first with its names changed, and no other than
the first if the names stay. -/
def TextsAlike (f : String → String) (s t : String) : Prop :=
  ∃ tokens, Token.ofText? s = some tokens ∧
    Token.ofText? t = some (tokens.map (Token.rename f)) ∧ (f = id → t = s)

theorem textsAlike_of_alike {s t : Statement} (h : s.Alike f t) : TextsAlike f s.text t.text := by
  refine ⟨_, s.ofText?_text, ?_, ?_⟩
  · rw [h.tokens, s.ofText?_text]
    rfl
  · rintro rfl
    exact h.text_eq

/-- What holds of two lists one by one holds of the beginnings of both. -/
theorem forall_mem_zip_of_parts {α : Type} {R : α → α → Prop} {all all' part part' : List α}
    (h : List.Forall₂ R all all') (of : part <+: all) (of' : part' <+: all') :
    ∀ p ∈ part.zip part', R p.1 p.2 := by
  intro p hp
  obtain ⟨i, at_i⟩ := List.mem_iff_getElem?.mp hp
  obtain ⟨here, here'⟩ := List.getElem?_zip_eq_some.mp at_i
  obtain ⟨rest, rfl⟩ := of
  obtain ⟨rest', rfl⟩ := of'
  refine (List.forall₂_iff_zip.mp h).2 (List.mem_iff_getElem?.mpr ⟨i, ?_⟩)
  refine List.getElem?_zip_eq_some.mpr ⟨?_, ?_⟩
  · rwa [List.getElem?_append_left (List.getElem?_eq_some_iff.mp here).1]
  · rwa [List.getElem?_append_left (List.getElem?_eq_some_iff.mp here').1]

/-- A request decides which statements are issued and what they bind, and no more. -/
theorem issued_texts (st : SqlStore) :
    (∀ entity scope plan, Issues (Confined st.registry) (st.select entity scope plan)) ∧
    (∀ entity row, Issues (Confined st.registry) (st.insert entity row)) ∧
    (∀ entity key row, Issues (Confined st.registry) (st.patch entity key row)) ∧
    (∀ entity key, Issues (Confined st.registry) (st.delete entity key)) ∧
    (∀ entities, (∀ e ∈ entities, st.registry.Has e) →
      Issues (Confined st.registry) (createTables entities)) ∧
    ∀ f, Function.Injective f → ∀ st', st'.batchSize = st.batchSize →
      ∀ call call', Call.Alike f st st' call call' → ∀ session session',
        let issued := issuedBy (st.perform call) session
        let issued' := issuedBy (st'.perform call') session'
        (∀ p ∈ issued.zip issued', TextsAlike f p.1.text p.2.text) ∧
          ((st.perform call session).1 = .ok () → (st'.perform call' session').1 = .ok () →
            issued'.length = issued.length) := by
  refine ⟨select_confined, insert_confined, patch_confined, delete_confined,
    createTables_confined, ?_⟩
  intro f injective st' sizes call call' alike session session'
  have follows := st.perform_follows call
  have follows' := st'.perform_follows call'
  have planned := planned_alike injective sizes alike
  refine ⟨?_, ?_⟩
  · intro p hp
    exact textsAlike_of_alike (forall_mem_zip_of_parts planned (follows.issuedBy_starts session)
      (follows'.issuedBy_starts session') p hp)
  · intro done done'
    rw [follows.issuedBy_eq done, follows'.issuedBy_eq done']
    exact planned.length_eq.symm

end SqlStore

namespace Catalog
open Sql SqlStore

/-- A name that would close its quotes too early. -/
def broken (name : String) : String := name ++ "\""

def brokenCategory : Entity where
  name := "Category"
  table := some "Category\""
  fields := [("id\"", .scalar ⟨"integer"⟩), ("name\"", .scalar ⟨"string"⟩)]
  relations := []
  api := { primaryField := some "id\"" }

def categoryStore : SqlStore := ⟨registry, 1⟩

def brokenStore : SqlStore := ⟨⟨[("Category", brokenCategory)]⟩, 1⟩

def newCategory : Call := .insert "Category" [("id", .ofInt 3), ("name", .string "Web")]

def newBroken : Call := .insert "Category" [("id\"", .null), ("name\"", .string "\"; --")]

theorem renamed_category : category.Renamed broken brokenCategory where
  table := by decide +kernel
  fields := by decide +kernel
  primary := by decide +kernel

theorem issued_texts_category :
    Function.Injective broken ∧ brokenStore.batchSize = categoryStore.batchSize ∧
    Call.Alike broken categoryStore brokenStore newCategory newBroken ∧
    (∀ e ∈ [category], categoryStore.registry.Has e) ∧
    Issues (Confined registry) (createTables [category]) ∧
    ∀ p ∈ (issuedBy (categoryStore.perform newCategory) {}).zip
        (issuedBy (brokenStore.perform newBroken) {}),
      TextsAlike broken p.1.text p.2.text := by
  have injective : Function.Injective broken := by
    intro s t same
    simpa [broken, ← String.toList_inj] using same
  have alike : Call.Alike broken categoryStore brokenStore newCategory newBroken :=
    .insert rfl rfl renamed_category (by decide +kernel)
  have has : ∀ e ∈ [category], categoryStore.registry.Has e :=
    List.forall_mem_singleton.mpr ⟨"Category", rfl⟩
  obtain ⟨_, _, _, _, tables, texts⟩ := issued_texts categoryStore
  exact ⟨injective, rfl, alike, has, tables _ has,
    (texts broken injective brokenStore rfl _ _ alike {} {}).1⟩

end Catalog
end EntityGraph
