import EntityGraph.Proofs.ThroughLists

/-!
Pages of a level are its rows cut into parts. At the root the pages make up the answer, and below
it those of a list make up the list, for each parent on its own, with all else in the answer as it
is without paging: what a row shows does not depend on which others are read with it.
-/

namespace EntityGraph

/-- One page after the other, as far as they are full, are the first rows. -/
theorem flatMap_range_page {α : Type} (rows : List α) (n m : Nat) :
    (List.range m).flatMap (fun k => page (some (k * n)) (some n) rows) = rows.take (m * n) := by
  induction m with
  | zero => simp
  | succ m ih =>
      have last : page (some (m * n)) (some n) rows = (rows.drop (m * n)).take n := rfl
      rw [List.range_succ, List.flatMap_append, ih, List.flatMap_singleton, last, ← List.take_add,
        Nat.succ_mul]

theorem flatMap_range_page_of_le {α : Type} {rows : List α} {n m : Nat}
    (enough : rows.length ≤ m * n) :
    (List.range m).flatMap (fun k => page (some (k * n)) (some n) rows) = rows := by
  rw [flatMap_range_page, List.take_of_length_le enough]

namespace Json

/-- The value, or each item of a list, changed. -/
def eachRow (change : Json → Json) : Json → Json
  | .array items => .array (items.map change)
  | v => change v

/-- What an object has under the name, changed. -/
def atField (name : String) (change : Json → Json) : Json → Json
  | .object row =>
      .object (row.map fun entry => if entry.1 = name then (entry.1, change entry.2) else entry)
  | v => v

/-- What the rows have at the end of the path, changed. -/
def mapAt : List String → (Json → Json) → Json → Json
  | [], change => change
  | name :: path, change => eachRow (atField name (mapAt path change))

def valuesOf (name : String) : Json → List Json
  | .object row => (row.filter fun entry => entry.1 = name).map (·.2)
  | _ => []

/-- What the rows have at the end of the path: one value for each row that has the last name. -/
def valuesAt : List String → Json → List Json
  | [], v => [v]
  | name :: path, v => v.asList.flatMap fun row => (valuesOf name row).flatMap (valuesAt path)

theorem mem_valuesOf {name : String} {row : Row} {v : Json} :
    v ∈ valuesOf name (.object row) ↔ (name, v) ∈ row := by
  simp [valuesOf]

theorem mem_valuesAt_cons {name : String} {path : List String} {v w : Json} :
    w ∈ valuesAt (name :: path) v ↔
      ∃ row ∈ v.asList, ∃ inner ∈ valuesOf name row, w ∈ valuesAt path inner := by
  simp only [valuesAt, List.mem_flatMap]

theorem mem_valuesAt_object {name : String} {path : List String} {row : Row} {w : Json} :
    w ∈ valuesAt (name :: path) (.object row) ↔
      ∃ inner, (name, inner) ∈ row ∧ w ∈ valuesAt path inner := by
  simp [mem_valuesAt_cons, asList, mem_valuesOf]

/-- A page of a list. -/
def pageOf (n offset : Nat) : Json → Json
  | .array items => .array (page (some offset) (some n) items)
  | v => v

end Json

namespace FetchPlan

/-- The plan with a limit and an offset after all that it has. -/
def paged (p : FetchPlan) (n offset : Nat) : FetchPlan :=
  { p with modifiers := p.modifiers ++ [.limit n, .offset offset] }

/-- The plan with one relation's plan changed. -/
def changeRelation (p : FetchPlan) (name : String) (change : FetchPlan → FetchPlan) : FetchPlan :=
  { p with relations := p.relations.map fun entry =>
      if entry.1 = name then (entry.1, change entry.2) else entry }

/-- The plan with a page of the level at the end of a path of relations. -/
def pagedAt (n offset : Nat) : List String → FetchPlan → FetchPlan
  | [], p => p.paged n offset
  | name :: path, p => p.changeRelation name (pagedAt n offset path)

/-- Along the relations of the path the plan comes to a list, which the answer has at the end of a
path of names. -/
inductive ListAt (r : Registry) : Entity → FetchPlan → List String → List String → FetchPlan → Prop
  | here {e target : Entity} {plan child : FetchPlan} {name : String} {rel : Relation} :
      (name, child) ∈ plan.relations → e.relation? name = some rel →
      r.get? rel.target = some target → rel.cardinality.isList = true →
      ListAt r e plan [name] [child.outputName name] child
  | within {e target : Entity} {plan child last : FetchPlan} {name : String} {rel : Relation}
      {path names : List String} :
      (name, child) ∈ plan.relations → e.relation? name = some rel →
      r.get? rel.target = some target → ListAt r target child path names last →
      ListAt r e plan (name :: path) (child.outputName name :: names) last

section Paged

variable (p : FetchPlan) (n offset : Nat)

theorem limit?_paged : (p.paged n offset).limit? = some n := by
  simp [paged, limit?, List.findSome?_cons, Modifier.limit?]

theorem offset?_paged : (p.paged n offset).offset? = some offset := by
  simp [paged, offset?, List.findSome?_cons, Modifier.offset?]

theorem selected?_paged : (p.paged n offset).selected? = p.selected? := by
  simp [paged, selected?, List.findSome?_append, List.findSome?_cons, Modifier.selected?]

theorem ordering_paged : (p.paged n offset).ordering = p.ordering := by
  simp [paged, ordering, Modifier.sortKey?]

theorem predicates_paged : (p.paged n offset).predicates = p.predicates := by
  simp [paged, predicates, Modifier.predicate?]

end Paged

section PagedAt

variable {r : Registry} {e : Entity} (n offset : Nat)

theorem pagedAt_nil (p : FetchPlan) : p.pagedAt n offset [] = p.paged n offset := rfl

theorem outputName_pagedAt (path : List String) (p : FetchPlan) (relation : String) :
    (p.pagedAt n offset path).outputName relation = p.outputName relation := by
  cases path <;> rfl

theorem selected?_pagedAt (path : List String) (p : FetchPlan) :
    (p.pagedAt n offset path).selected? = p.selected? := by
  cases path with
  | nil => exact p.selected?_paged n offset
  | cons name path => rfl

theorem ordering_pagedAt (path : List String) (p : FetchPlan) :
    (p.pagedAt n offset path).ordering = p.ordering := by
  cases path with
  | nil => exact p.ordering_paged n offset
  | cons name path => rfl

theorem predicates_pagedAt (path : List String) (p : FetchPlan) :
    (p.pagedAt n offset path).predicates = p.predicates := by
  cases path with
  | nil => exact p.predicates_paged n offset
  | cons name path => rfl

theorem keys_relations_pagedAt (path : List String) (p : FetchPlan) :
    Dict.keys (p.pagedAt n offset path).relations = Dict.keys p.relations := by
  cases path with
  | nil => rfl
  | cons name path =>
      simp only [pagedAt, changeRelation, Dict.keys, List.map_map]
      refine List.map_congr_left fun entry _ => ?_
      dsimp only [Function.comp]
      split <;> rfl

/-- A relation of the plan is one of the plan without paging, and has its page inside if any. -/
theorem mem_relations_pagedAt {path : List String} {p : FetchPlan} {entry : String × FetchPlan}
    (h : entry ∈ (p.pagedAt n offset path).relations) :
    ∃ child, (entry.1, child) ∈ p.relations ∧
      (entry.2 = child ∨ ∃ rest, entry.2 = child.pagedAt n offset rest) := by
  cases path with
  | nil => exact ⟨entry.2, h, .inl rfl⟩
  | cons name path =>
      obtain ⟨⟨own, child⟩, member, made⟩ := List.mem_map.mp h
      dsimp only at made
      split at made
      · subst made
        exact ⟨child, member, .inr ⟨path, rfl⟩⟩
      · subst made
        exact ⟨child, member, .inl rfl⟩

theorem fits_pagedAt {p : FetchPlan} (fits : p.Fits r e) (path : List String) :
    (p.pagedAt n offset path).Fits r e := by
  induction fits generalizing path with
  | @level e p fields selected nodup scalars names resolved below ih =>
      refine .level ((p.selected?_pagedAt n offset path).trans selected) nodup scalars
        ((keys_relations_pagedAt n offset path p).symm ▸ names) ?_ ?_
      · intro entry h
        obtain ⟨child, member, same | ⟨rest, same⟩⟩ := mem_relations_pagedAt n offset h
        · rw [same]
          exact resolved _ member
        · rw [same, outputName_pagedAt]
          exact resolved _ member
      · intro entry h rel target hrel htarget
        obtain ⟨child, member, same | ⟨rest, same⟩⟩ := mem_relations_pagedAt n offset h
        · rw [same]
          exact below _ member rel target hrel htarget
        · rw [same]
          exact ih _ member rel target hrel htarget rest

theorem exists_reaches_of_pagedAt {path : List String} {p p' : FetchPlan} {e' : Entity}
    (h : r.Reaches e (p.pagedAt n offset path) e' p') :
    ∃ q, r.Reaches e p e' q ∧ p'.ordering = q.ordering := by
  generalize paged : p.pagedAt n offset path = plan at h
  induction h generalizing p path with
  | root => exact ⟨p, .root, paged ▸ ordering_pagedAt n offset path p⟩
  | @relation e target e' plan child plan' name rel member hrel htarget below ih =>
      subst paged
      obtain ⟨own, member', same | ⟨rest, same⟩⟩ := mem_relations_pagedAt n offset member
      · obtain rfl : child = own := same
        exact ⟨plan', .relation member' hrel htarget below, rfl⟩
      · obtain ⟨q, reaches, ordering⟩ := ih same.symm
        exact ⟨q, .relation member' hrel htarget reaches, ordering⟩

end PagedAt

end FetchPlan

namespace MemoryStore

open FetchPlan

variable {r : Registry} {s : MemoryStore} {e : Entity} {n offset : Nat}

theorem orderedFor_pagedAt {p : FetchPlan} (ordered : s.OrderedFor r e p) (path : List String) :
    s.OrderedFor r e (p.pagedAt n offset path) := by
  intro e' p' reaches
  obtain ⟨q, reaches', ordering⟩ := exists_reaches_of_pagedAt n offset reaches
  rw [ordering]
  exact ordered e' q reaches'

theorem levelRows_pagedAt (path : List String) (p : FetchPlan) (within : Row → Bool) :
    s.levelRows e (p.pagedAt n offset path) within = s.levelRows e p within := by
  rw [levelRows, ordering_pagedAt, predicates_pagedAt]
  rfl

/-- The rows of a page, if the level has no page of its own. -/
theorem childRows_paged {rel : Relation} {target : Entity} {child : FetchPlan}
    (unlimited : child.limit? = none) (fromStart : child.offset? = none) (owner : Row) :
    s.childRows r e rel target (child.paged n offset) owner =
      page (some offset) (some n) (s.childRows r e rel target child owner) := by
  rw [childRows, childRows, limit?_paged, offset?_paged, unlimited, fromStart, ← pagedAt_nil,
    levelRows_pagedAt]
  rfl

theorem childRows_pagedAt {rel : Relation} {target : Entity} (name : String) (path : List String)
    (child : FetchPlan) (owner : Row) :
    s.childRows r e rel target (child.pagedAt n offset (name :: path)) owner =
      s.childRows r e rel target child owner := rfl

theorem objectOf_paged (row : Row) (p : FetchPlan) :
    s.objectOf r e row (p.paged n offset) = s.objectOf r e row p := by
  have columns : (p.paged n offset).columnsOf e = p.columnsOf e := by
    rw [FetchPlan.columnsOf, selected?_paged]
    rfl
  obtain ⟨shownAs, relations, modifiers⟩ := p
  exact congrArg (fun names => names.map (fun column => (column, Json.field row column)) ++
    s.entriesOf r e row relations) columns

section ChangeRelation

variable {name : String} {child : FetchPlan} {rel : Relation} {target : Entity} {row : Row}
  {change : FetchPlan → FetchPlan} {changed : Json → Json}

theorem entriesOf_changeRelation (hrel : e.relation? name = some rel)
    (htarget : r.get? rel.target = some target)
    (shown : (change child).outputName name = child.outputName name)
    (value : childValue r s e rel target (change child) row =
      changed (childValue r s e rel target child row))
    {relations : List (String × FetchPlan)}
    (own : ∀ entry ∈ relations, entry.1 = name → entry.2 = child)
    (other : ∀ entry ∈ relations, entry.1 ≠ name →
      entry.2.outputName entry.1 ≠ child.outputName name) :
    s.entriesOf r e row (relations.map fun entry =>
        if entry.1 = name then (entry.1, change entry.2) else entry) =
      (s.entriesOf r e row relations).map fun entry =>
        if entry.1 = child.outputName name then (entry.1, changed entry.2) else entry := by
  induction relations with
  | nil => rfl
  | cons entry rest ih =>
      obtain ⟨relation, plan⟩ := entry
      obtain ⟨same, ownRest⟩ := List.forall_mem_cons.mp own
      obtain ⟨different, otherRest⟩ := List.forall_mem_cons.mp other
      have below := ih ownRest otherRest
      by_cases here : relation = name
      · obtain rfl := here
        obtain rfl : plan = child := same rfl
        simp only [List.map_cons, if_true, entriesOf, hrel, htarget, shown, below]
        exact congrArg (fun v => (_, v) :: _) value
      · have apart := different here
        simp only [List.map_cons, if_neg here, entriesOf, below]
        split
        · rfl
        · split
          · rfl
          · rw [List.map_cons, if_neg apart]

theorem objectOf_eq (row : Row) (p : FetchPlan) :
    s.objectOf r e row p = (p.columnsOf e).map (fun column => (column, Json.field row column)) ++
      s.entriesOf r e row p.relations := by
  cases p
  rfl

variable {p : FetchPlan}

theorem hasScalar_of_mem_columnsOf {selected : List String} (h : p.selected? = some selected)
    {column : String} (hc : column ∈ p.columnsOf e) : e.hasScalar column = true := by
  rw [FetchPlan.columnsOf, h] at hc
  exact (List.mem_filter.mp hc).2

theorem eq_of_mem_relations (names : (Dict.keys p.relations).Nodup)
    (member : (name, child) ∈ p.relations) :
    ∀ entry ∈ p.relations, entry.1 = name → entry.2 = child := by
  rintro ⟨_, other⟩ h rfl
  have found := Dict.get?_of_mem names h
  rw [Dict.get?_of_mem names member] at found
  exact (Option.some.inj found).symm

theorem eq_of_outputName (outputs : (FetchPlan.outputs p.relations).Nodup)
    (member : (name, child) ∈ p.relations) :
    ∀ entry ∈ p.relations, entry.2.outputName entry.1 = child.outputName name →
      entry = (name, child) :=
  fun _ h same => List.inj_on_of_nodup_map outputs h member same

/-- Changing one relation's plan changes what a row has under its name, and nothing else. -/
theorem objectOf_changeRelation (fits : p.Fits r e) (member : (name, child) ∈ p.relations)
    (hrel : e.relation? name = some rel) (htarget : r.get? rel.target = some target)
    (shown : (change child).outputName name = child.outputName name)
    (value : childValue r s e rel target (change child) row =
      changed (childValue r s e rel target child row)) :
    Json.object (s.objectOf r e row (p.changeRelation name change)) =
      Json.atField (child.outputName name) changed (.object (s.objectOf r e row p)) := by
  cases fits with
  | level selected _ _ names resolved _ =>
      have outputs := FetchPlan.nodup_outputs names resolved
      have entries := entriesOf_changeRelation hrel htarget shown value
        (eq_of_mem_relations names member) fun entry h different same =>
          different (congrArg Prod.fst (eq_of_outputName outputs member entry h same))
      have columns : ((p.columnsOf e).map fun column => (column, Json.field row column)).map
          (fun entry => if entry.1 = child.outputName name then (entry.1, changed entry.2)
            else entry) =
          (p.columnsOf e).map fun column => (column, Json.field row column) := by
        rw [List.map_map]
        refine List.map_congr_left fun column hc => if_neg ?_
        rintro rfl
        have relation := FetchPlan.not_hasScalar_of_mem_outputs resolved
          (List.mem_map_of_mem (f := fun entry => entry.2.outputName entry.1) member)
        rw [hasScalar_of_mem_columnsOf selected hc] at relation
        cases relation
      rw [objectOf_eq, objectOf_eq, Json.atField, List.map_append, columns]
      exact congrArg (fun more => Json.object (_ ++ more)) entries

end ChangeRelation

/-- A page of a list relation is a page of what it shows. -/
theorem childValue_paged {rel : Relation} (list : rel.cardinality.isList = true) {target : Entity}
    {child : FetchPlan} (unlimited : child.limit? = none) (fromStart : child.offset? = none)
    (owner : Row) : childValue r s e rel target (child.paged n offset) owner =
      (childValue r s e rel target child owner).pageOf n offset := by
  unfold childValue Relation.present
  rw [if_pos list, if_pos list, childRows_paged unlimited fromStart, Json.pageOf, page_map]
  simp only [objectOf_paged]

theorem eachRow_present {rel : Relation} {changed : Json → Json} (nothing : changed .null = .null)
    (object : Row → Row) (rows : List Row) :
    Json.eachRow changed (rel.present (rows.map fun row => .object (object row))) =
      rel.present (rows.map fun row => changed (.object (object row))) := by
  unfold Relation.present
  split
  · rw [Json.eachRow, List.map_map]
    rfl
  · cases rows with
    | nil => exact nothing
    | cons row rest => rfl

theorem childValue_pagedAt {rel : Relation} {target : Entity} {child : FetchPlan}
    {name out : String} {path names : List String}
    (shown : ∀ row, Json.object (s.objectOf r target row (child.pagedAt n offset (name :: path))) =
      Json.mapAt (out :: names) (Json.pageOf n offset) (.object (s.objectOf r target row child)))
    (owner : Row) :
    childValue r s e rel target (child.pagedAt n offset (name :: path)) owner =
      Json.mapAt (out :: names) (Json.pageOf n offset)
        (childValue r s e rel target child owner) := by
  rw [childValue, childValue, childRows_pagedAt, Json.mapAt, eachRow_present rfl]
  exact congrArg rel.present (List.map_congr_left fun row _ => shown row)

end MemoryStore

theorem FetchPlan.ListAt.exists_cons {r : Registry} {e : Entity} {p last : FetchPlan}
    {path names : List String} (h : p.ListAt r e path names last) :
    ∃ name rest out outs, path = name :: rest ∧ names = out :: outs := by
  cases h <;> exact ⟨_, _, _, _, rfl, rfl⟩

namespace MemoryStore

variable {r : Registry} {s : MemoryStore} {e : Entity} {n offset : Nat} {p last : FetchPlan}
  {path names : List String}

/-- Paging below a row changes what it shows at the end of the path, and nothing else. -/
theorem objectOf_pagedAt (list : p.ListAt r e path names last) (fits : p.Fits r e)
    (unlimited : last.limit? = none) (fromStart : last.offset? = none) (row : Row) :
    Json.object (s.objectOf r e row (p.pagedAt n offset path)) =
      Json.mapAt names (Json.pageOf n offset) (.object (s.objectOf r e row p)) := by
  induction list generalizing row with
  | here member hrel htarget list =>
      exact objectOf_changeRelation fits member hrel htarget
        (FetchPlan.outputName_pagedAt n offset [] _ _)
        (childValue_paged list unlimited fromStart row)
  | @within e target p child last name rel path names member hrel htarget below ih =>
      have fitsChild : child.Fits r target := by
        cases fits with
        | level _ _ _ _ _ children => exact children _ member rel target hrel htarget
      have shown := ih fitsChild unlimited fromStart
      obtain ⟨_, _, _, _, rfl, rfl⟩ := below.exists_cons
      exact objectOf_changeRelation fits member hrel htarget
        (FetchPlan.outputName_pagedAt n offset _ _ _) (childValue_pagedAt shown row)

theorem exists_of_mem_entriesOf {row : Row} {relations : List (String × FetchPlan)}
    {entry : String × Json} (h : entry ∈ s.entriesOf r e row relations) :
    ∃ name child rel target, (name, child) ∈ relations ∧ e.relation? name = some rel ∧
      r.get? rel.target = some target ∧
      entry = (child.outputName name, childValue r s e rel target child row) := by
  induction relations with
  | nil => cases h
  | cons first rest ih =>
      obtain ⟨name, child⟩ := first
      have later (h : entry ∈ s.entriesOf r e row rest) :
          ∃ name' child' rel target, (name', child') ∈ (name, child) :: rest ∧
            e.relation? name' = some rel ∧ r.get? rel.target = some target ∧
            entry = (child'.outputName name', childValue r s e rel target child' row) := by
        obtain ⟨name', child', rel, target, member, found⟩ := ih h
        exact ⟨name', child', rel, target, List.mem_cons_of_mem _ member, found⟩
      rw [entriesOf] at h
      split at h
      · exact later h
      · rename_i rel hrel
        split at h
        · exact later h
        · rename_i target htarget
          obtain rfl | h := List.mem_cons.mp h
          · exact ⟨name, child, rel, target, List.mem_cons_self, hrel, htarget, rfl⟩
          · exact later h

/-- Under the name of a relation is its value, and nothing else. -/
theorem eq_childValue_of_mem {name : String} {child : FetchPlan} {rel : Relation}
    {target : Entity} (fits : p.Fits r e) (member : (name, child) ∈ p.relations)
    (hrel : e.relation? name = some rel) (htarget : r.get? rel.target = some target) {row : Row}
    {v : Json} (h : (child.outputName name, v) ∈ s.objectOf r e row p) :
    v = childValue r s e rel target child row := by
  cases fits with
  | level selected _ _ names resolved _ =>
      rw [objectOf_eq] at h
      obtain column | relation := List.mem_append.mp h
      · obtain ⟨own, hown, same⟩ := List.mem_map.mp column
        obtain ⟨rfl, _⟩ := Prod.mk.inj same
        have relation := FetchPlan.not_hasScalar_of_mem_outputs resolved
          (List.mem_map_of_mem (f := fun entry => entry.2.outputName entry.1) member)
        rw [hasScalar_of_mem_columnsOf selected hown] at relation
        cases relation
      · obtain ⟨name', child', rel', target', member', hrel', htarget', same⟩ :=
          exists_of_mem_entriesOf relation
        obtain ⟨shown, rfl⟩ := Prod.mk.inj same
        obtain ⟨rfl, rfl⟩ := Prod.mk.inj
          (eq_of_outputName (FetchPlan.nodup_outputs names resolved) member _ member' shown.symm)
        obtain rfl := Option.some.inj (hrel.symm.trans hrel')
        obtain rfl := Option.some.inj (htarget.symm.trans htarget')
        rfl

/-- What a relation shows is made of rows, or is nothing. -/
theorem object_of_mem_childValue {rel : Relation} {target : Entity} {child : FetchPlan}
    {owner : Row} {v : Json} (h : v ∈ (childValue r s e rel target child owner).asList) :
    v = .null ∨ ∃ row, v = .object (s.objectOf r target row child) := by
  unfold childValue Relation.present at h
  split at h
  · obtain ⟨row, _, rfl⟩ := List.mem_map.mp h
    exact .inr ⟨row, rfl⟩
  · cases found : s.childRows r e rel target child owner with
    | nil =>
        rw [found] at h
        exact .inl (List.mem_singleton.mp h)
    | cons row rest =>
        rw [found] at h
        exact .inr ⟨row, List.mem_singleton.mp h⟩

/-- At the end of the path is a list for each row that has it. -/
theorem exists_items_of_mem_valuesAt (list : p.ListAt r e path names last) (fits : p.Fits r e)
    {row : Row} {v : Json} (h : v ∈ Json.valuesAt names (.object (s.objectOf r e row p))) :
    ∃ items, v = .array items := by
  induction list generalizing row with
  | here member hrel htarget list =>
      obtain ⟨inner, hinner, hv⟩ := Json.mem_valuesAt_object.mp h
      obtain rfl := List.mem_singleton.mp hv
      rw [eq_childValue_of_mem fits member hrel htarget hinner, childValue, Relation.present,
        if_pos list]
      exact ⟨_, rfl⟩
  | @within e target p child last name rel path names member hrel htarget below ih =>
      obtain ⟨inner, hinner, hv⟩ := Json.mem_valuesAt_object.mp h
      rw [eq_childValue_of_mem fits member hrel htarget hinner] at hv
      have fitsChild : child.Fits r target := by
        cases fits with
        | level _ _ _ _ _ children => exact children _ member rel target hrel htarget
      obtain ⟨_, _, out, outs, rfl, rfl⟩ := below.exists_cons
      obtain ⟨item, hitem, deeper, hdeeper, hv⟩ := Json.mem_valuesAt_cons.mp hv
      obtain rfl | ⟨found, rfl⟩ := object_of_mem_childValue hitem
      · cases hdeeper
      · exact ih fitsChild
          (Json.mem_valuesAt_object.mpr ⟨deeper, Json.mem_valuesOf.mp hdeeper, hv⟩)

theorem mapM_ok {ε α β : Type} {f : α → Except ε β} {g : α → β} (h : ∀ a, f a = .ok (g a))
    (items : List α) : items.mapM f = .ok (items.map g) := by
  have pureOf : f = fun a => pure (g a) := funext h
  rw [pureOf, List.mapM_pure]
  rfl

theorem readEach_paged (scope : KeyScope) (unlimited : p.limit? = none)
    (fromStart : p.offset? = none) : s.readEach r e scope (p.paged n offset) =
      page (some offset) (some n) (s.readEach r e scope p) := by
  rw [readEach, readEach, FetchPlan.limit?_paged, FetchPlan.offset?_paged, unlimited, fromStart,
    ← FetchPlan.pagedAt_nil, levelRows_pagedAt, FetchPlan.pagedAt_nil, page_map]
  simp only [objectOf_paged]
  rfl

theorem readEach_pagedAt (scope : KeyScope) (list : p.ListAt r e path names last)
    (fits : p.Fits r e) (unlimited : last.limit? = none) (fromStart : last.offset? = none) :
    s.readEach r e scope (p.pagedAt n offset path) =
      (s.readEach r e scope p).map (Json.mapAt names (Json.pageOf n offset)) := by
  obtain ⟨_, _, _, _, rfl, rfl⟩ := list.exists_cons
  rw [readEach, readEach, List.map_map, levelRows_pagedAt]
  exact List.map_congr_left fun row _ => objectOf_pagedAt list fits unlimited fromStart row

/-- The pages of the root, one after the other, are the answer without paging. The pages of a list
further down change the answer at that list only, and there they make up, for each parent, the
list that it has without paging. -/
theorem select_pages {entities : List Entity} (accepted : Registry.ofList entities = .ok r)
    (declared : r.ColumnsDeclared) (joins : s.JoinsEqual r) {name : String}
    (registered : r.get? name = some e) (protocol : ArgumentProtocol) (selection : Selection)
    (arguments : Row)
    (ordered : s.OrderedFor r e ((⟨some r, protocol⟩ : Compiler).compile name selection arguments))
    {scope : KeyScope} (keyed : scope = .all ∨ e.primaryField.isSome = true) (n : Nat) :
    let plan := (⟨some r, protocol⟩ : Compiler).compile name selection arguments
    ∃ rows, select r s name scope plan = .ok rows ∧
      (plan.limit? = none → plan.offset? = none → ∀ m, rows.length ≤ m * n →
        ∃ pages, (List.range m).mapM (fun k => select r s name scope (plan.paged n (k * n))) =
          .ok pages ∧ pages.flatten = rows) ∧
      ∀ path names last, plan.ListAt r e path names last → last.limit? = none →
        last.offset? = none →
        (∀ offset, select r s name scope (plan.pagedAt n offset path) =
          .ok (rows.map (Json.mapAt names (Json.pageOf n offset)))) ∧
        ∀ list ∈ rows.flatMap (Json.valuesAt names), ∃ items, list = .array items ∧
          ∀ m, items.length ≤ m * n →
            (List.range m).flatMap (fun k => (list.pageOf n (k * n)).asList) = items := by
  intro plan
  have fits : plan.Fits r e := Compiler.fits_compile registered selection arguments
  have answered (offset : Nat) (path : List String) :
      select r s name scope (plan.pagedAt n offset path) =
        .ok (s.readEach r e scope (plan.pagedAt n offset path)) :=
    fetchGraph_of_fits accepted declared joins registered
      (FetchPlan.fits_pagedAt n offset fits path) (orderedFor_pagedAt ordered path) keyed
  refine ⟨s.readEach r e scope plan,
    fetchGraph_of_fits accepted declared joins registered fits ordered keyed, ?_, ?_⟩
  · intro unlimited fromStart m enough
    have parts (k : Nat) : select r s name scope (plan.paged n (k * n)) =
        .ok (page (some (k * n)) (some n) (s.readEach r e scope plan)) := by
      rw [← readEach_paged scope unlimited fromStart]
      exact answered (k * n) []
    refine ⟨_, mapM_ok parts _, ?_⟩
    rw [← List.flatMap_def]
    exact flatMap_range_page_of_le enough
  · intro path names last list unlimited fromStart
    refine ⟨?_, ?_⟩
    · intro offset
      rw [answered, readEach_pagedAt scope list fits unlimited fromStart]
    · intro v hv
      obtain ⟨shown, hshown, hv⟩ := List.mem_flatMap.mp hv
      obtain ⟨row, _, rfl⟩ := List.mem_map.mp hshown
      obtain ⟨items, rfl⟩ := exists_items_of_mem_valuesAt list fits hv
      exact ⟨items, rfl, fun m enough => flatMap_range_page_of_le enough⟩

end MemoryStore

namespace Catalog

open MemoryStore

theorem posts_columnsDeclared : posts.ColumnsDeclared := by
  refine ⟨?_, fun e column => posts_declared⟩
  rintro e ⟨name, found⟩ column hprimary
  have registered := Dict.mem_of_get? found
  simp only [posts, List.mem_cons, Prod.mk.injEq, List.not_mem_nil, or_false] at registered
  obtain ⟨_, rfl⟩ | ⟨_, rfl⟩ | ⟨_, rfl⟩ := registered <;> cases hprimary <;> rfl

theorem repeatedLink_joinsEqual : repeatedLink.JoinsEqual posts := by
  refine joinsEqual_of_texts ?_
  intro v h
  have values : v ∈ ["rows", "rows", "rows", "rows", "db", "db", "web", "db", "web",
    "ui"].map Json.string := posts_joinValue h
  obtain ⟨text, _, rfl⟩ := List.mem_map.mp values
  exact .inr ⟨text, rfl⟩

/-- No level of the plan is put in order. -/
theorem postPlan_orderedFor (s : MemoryStore) : s.OrderedFor posts post postPlan := by
  intro e plan reaches
  cases reaches with
  | root => exact fun k hk => absurd hk List.not_mem_nil
  | relation member _ _ below =>
      obtain ⟨rfl, rfl⟩ := Prod.mk.inj (List.mem_singleton.mp member)
      cases below with
      | root => exact fun k hk => absurd hk List.not_mem_nil
      | relation member => cases member

/-- The second tag of the post. -/
theorem select_pages_posts :
    posts.ColumnsDeclared ∧ repeatedLink.JoinsEqual posts ∧
    repeatedLink.OrderedFor posts post postPlan ∧
    postPlan.ListAt posts post ["tags"] ["tags"] labelPlan ∧
    labelPlan.limit? = none ∧ labelPlan.offset? = none ∧
    select posts repeatedLink "Post" .all (postPlan.pagedAt 1 1 ["tags"]) =
      .ok [.object [("slug", .string "rows"),
        ("tags", .array [.object [("label", .string "Web")]])]] := by
  have list : postPlan.ListAt posts post ["tags"] [labelPlan.outputName "tags"] labelPlan :=
    .here List.mem_cons_self rfl rfl rfl
  have whole : select posts repeatedLink "Post" .all postPlan = .ok
      [.object [("slug", .string "rows"), ("tags",
        .array [.object [("label", .string "Databases")], .object [("label", .string "Web")]])]] :=
    rfl
  have registered : posts.get? "Post" = some post := rfl
  obtain ⟨rows, unpaged, _, lists⟩ := select_pages posts_accepted posts_columnsDeclared
    repeatedLink_joinsEqual registered .standard [.leaf "slug", ⟨"tags", [], [.leaf "label"]⟩] []
    (postPlan_orderedFor repeatedLink) (.inl rfl) 1
  obtain rfl := Except.ok.inj (unpaged.symm.trans whole)
  refine ⟨posts_columnsDeclared, repeatedLink_joinsEqual, postPlan_orderedFor _, list, rfl, rfl, ?_⟩
  exact (lists _ _ _ list rfl rfl).1 1

end Catalog
end EntityGraph
