import EntityGraph.Proofs.Columns
import EntityGraph.Proofs.Joining
import EntityGraph.Proofs.PlanShape

/-!
Fetching a level for all owners in common and reading it anew for each owner come to the same.
A level is restricted to the keys of its owners, so it has every row that joins one of them; what
an owner receives of it is the level that would have been read for this owner alone.
-/

namespace EntityGraph

/-- A query without limit and offset answers with every stored row that it holds of. -/
theorem LevelQuery.mem_answer {q : LevelQuery} (unlimited : q.limit = none)
    (fromStart : q.offset = none) {rows : List Row} {row : Row} :
    row ∈ q.answer rows ↔ ∃ stored ∈ rows, q.holds stored = true ∧
      projectRow q.columns stored = row := by
  simp [answer, page, unlimited, fromStart, (SortKey.sortRows_perm q.order _).mem_iff, and_assoc]

theorem Expansion.shape_map (x : Expansion) (plan : FetchPlan) (rows : List Row)
    (object : Row → Row) :
    x.shape plan (rows.map object) =
      x.relation.present ((page plan.offset? plan.limit? rows).map fun row =>
        .object (object row)) := by
  unfold shape Relation.present
  rw [page_map]
  split
  · simp [Function.comp_def]
  · cases page plan.offset? plan.limit? rows <;> rfl

/-- A relation is written behind what the owners hold when its name is new to them. -/
theorem Expansion.attach_eq (x : Expansion) (plan : FetchPlan) {joined : Row → List Row}
    {owners : List Row} {full : Row → Row} {value : Row → Json}
    (fresh : ∀ owner ∈ owners, x.output ∉ Dict.keys (full owner))
    (h : ∀ owner ∈ owners, x.shape plan (joined (full owner)) = value owner) :
    x.attach plan joined (owners.map full) =
      owners.map fun owner => full owner ++ [(x.output, value owner)] := by
  rw [attach, List.map_map]
  refine List.map_congr_left ?_
  intro owner howner
  rw [Function.comp, Dict.insert_of_not_mem (fresh owner howner), h owner howner]

namespace Expansion

/-- The expansion of a relation that leads to its target without a middle. -/
abbrev direct (output : String) (rel : Relation) (target : Entity) : Expansion :=
  ⟨output, rel, target, rel.join.near, none⟩

/-- The expansion of a relation whose owners join the middle entity by a link. -/
abbrev through (output : String) (rel : Relation) (target : Entity) (link : Relation) :
    Expansion :=
  ⟨output, rel, target, link.join.near, some link⟩

end Expansion

namespace MemoryStore

variable {r : Registry} {s : MemoryStore} {e : Entity} {plan : FetchPlan}

theorem mem_of_mem_levelRows {within : Row → Bool} {row : Row}
    (h : row ∈ s.levelRows e plan within) : row ∈ (s.table e.name).rows :=
  List.mem_of_mem_filter (SortKey.mem_sorted.mp h)

/-- Of a level that was read for many, what belongs to one is the level read for this one. -/
theorem filter_levelRows (ordered : SortKey.Preordered plan.ordering (s.table e.name).rows)
    {within own : Row → Bool}
    (sub : ∀ row ∈ (s.table e.name).rows, own row = true → within row = true) :
    (s.levelRows e plan within).filter own = s.levelRows e plan own := by
  unfold levelRows
  rw [SortKey.filter_sorted (ordered.mono fun row h => List.mem_of_mem_filter h),
    List.filter_filter]
  congr 1
  refine List.filter_congr ?_
  intro row hrow
  cases hown : own row with
  | false => simp
  | true => simp [sub row hrow hown]

/-- A level restricted to the distinct keys of some values has the rows that join one of them. -/
theorem holds_of_joins (joins : s.JoinsEqual r) {values : List Json}
    (stored : ∀ v ∈ values, s.JoinValue r v) {column : String} {row : Row}
    (hrow : s.JoinValue r (Json.field row column)) {v : Json} (hv : v ∈ values)
    (h : v.joins (Json.field row column) = true) :
    (⟨column, distinctKeys values⟩ : KeyFilter).holds row = true := by
  obtain ⟨key, hkey, hfield⟩ := Json.joins_iff.mp h
  obtain ⟨w, member, hw⟩ := exists_mem_distinctKeys hv hkey
  have equal := joins _ w hrow (stored w (mem_of_mem_distinctKeysFrom member))
    (hfield.trans hw.symm)
  exact List.any_eq_true.mpr ⟨w, member, equal⟩

/-- The rows that a fetched level is made of. -/
def fetchedRows (s : MemoryStore) (e : Entity) (key : Option KeyFilter) (root : Bool)
    (plan : FetchPlan) : List Row :=
  let rows := s.levelRows e plan fun row => key.all (·.holds row)
  if root then page plan.offset? plan.limit? rows else rows

/-- As the store sorts them, whether or not the values of the ordering are put in order. -/
def queriedRows (s : MemoryStore) (e : Entity) (key : Option KeyFilter) (root : Bool)
    (plan : FetchPlan) : List Row :=
  let rows := SortKey.sortRows plan.ordering ((s.table e.name).rows.filter fun row =>
    key.all (·.holds row) && plan.predicates.all (·.holds row))
  if root then page plan.offset? plan.limit? rows else rows

theorem queriedRows_eq (ordered : SortKey.Preordered plan.ordering (s.table e.name).rows)
    (key : Option KeyFilter) (root : Bool) :
    s.queriedRows e key root plan = s.fetchedRows e key root plan := by
  rw [queriedRows, SortKey.sortRows_eq_sorted (ordered.mono fun row h =>
    List.mem_of_mem_filter h)]
  rfl

/-- Fetching the level succeeds, and shows the objects of its rows. -/
def Fetches (r : Registry) (s : MemoryStore) (e : Entity) (key : Option KeyFilter)
    (root : Bool) (plan : FetchPlan) : Prop :=
  ∃ level, fetchLevel s.source r e key root plan = pure level ∧
    level.Shows (key.map (·.column)) (s.fetchedRows e key root plan)
      fun row => s.objectOf r e row plan

section Relation

variable {name : String} {rel : Relation} {target : Entity}

theorem expansion?_direct (child : FetchPlan) (hrel : e.relation? name = some rel)
    (htarget : r.get? rel.target = some target) (direct : rel.cardinality.isThrough = false) :
    r.expansion? e name child = some (.direct (child.outputName name) rel target) := by
  unfold Registry.expansion?
  rw [hrel, Option.bind_eq_bind, Option.bind_some, htarget, Option.bind_eq_bind,
    Option.bind_some]
  cases hc : rel.cardinality with
  | one | many => rfl
  | manyThrough via => simp [hc, Cardinality.isThrough] at direct

theorem expansion?_through (child : FetchPlan) (hrel : e.relation? name = some rel)
    (htarget : r.get? rel.target = some target) {via : String}
    (through : rel.cardinality = .manyThrough via) {link : Relation}
    (hlink : e.relation? via = some link) :
    r.expansion? e name child = some (.through (child.outputName name) rel target link) := by
  unfold Registry.expansion?
  rw [hrel, Option.bind_eq_bind, Option.bind_some, htarget, Option.bind_eq_bind,
    Option.bind_some, through]
  simp [hlink]

theorem related_direct (direct : rel.cardinality.isThrough = false) (owner row : Row) :
    s.related r e rel owner row =
      (Json.field owner rel.join.near).joins (Json.field row rel.join.far) := by
  unfold related
  cases hc : rel.cardinality with
  | one | many => rfl
  | manyThrough via => simp [hc, Cardinality.isThrough] at direct

theorem related_through {via : String} (through : rel.cardinality = .manyThrough via)
    {link : Relation} (hlink : e.relation? via = some link) {middle : Entity}
    (hmiddle : r.get? link.target = some middle) (owner row : Row) :
    s.related r e rel owner row = true ↔ ∃ between ∈ (s.table middle.name).rows,
      (Json.field owner link.join.near).joins (Json.field between link.join.far) = true ∧
      (Json.field between rel.join.near).joins (Json.field row rel.join.far) = true := by
  simp only [related, through, hlink, hmiddle, List.any_eq_true, Bool.and_eq_true]

/-- A relation leads to its target at once, or by a link and through a middle entity. -/
theorem expansion?_cases {entities : List Entity} (accepted : Registry.ofList entities = .ok r)
    (has : r.Has e) (hrel : e.relation? name = some rel)
    (htarget : r.get? rel.target = some target) (child : FetchPlan) :
    (rel.cardinality.isThrough = false ∧
      r.expansion? e name child = some (.direct (child.outputName name) rel target)) ∨
    ∃ via link middle, rel.cardinality = .manyThrough via ∧ e.relation? via = some link ∧
      link.cardinality.isThrough = false ∧ r.get? link.target = some middle ∧
      r.expansion? e name child = some (.through (child.outputName name) rel target link) := by
  cases through : rel.cardinality with
  | manyThrough via =>
      obtain ⟨link, hlink, direct⟩ := Registry.exists_direct_via accepted has hrel through
      obtain ⟨middle, hmiddle⟩ := Registry.exists_target accepted has hlink
      exact .inr ⟨via, link, middle, rfl, hlink, direct, hmiddle,
        expansion?_through child hrel htarget through hlink⟩
  | one | many =>
      have direct : rel.cardinality.isThrough = false := by rw [through]; rfl
      exact .inl ⟨rfl, expansion?_direct child hrel htarget direct⟩

theorem joinValue_near (has : r.Has e) (hrel : e.relation? name = some rel)
    (direct : rel.cardinality.isThrough = false) {owner : Row}
    (stored : owner ∈ (s.table e.name).rows) :
    s.JoinValue r (Json.field owner rel.join.near) :=
  ⟨e, _, owner, .near has hrel direct, stored, rfl⟩

theorem joinValue_far (has : r.Has e) (hrel : e.relation? name = some rel)
    (htarget : r.get? rel.target = some target) {row : Row}
    (stored : row ∈ (s.table target.name).rows) :
    s.JoinValue r (Json.field row rel.join.far) :=
  ⟨target, _, row, .far has hrel htarget, stored, rfl⟩

end Relation

/-- What an owner receives of a level that is fetched for the keys of all owners. -/
theorem directMatches_fetched (joins : s.JoinsEqual r) {x : Expansion} {level : LevelRows}
    {child : FetchPlan} {owners : List Row} {object : Row → Row}
    (hlevel : level.Shows (some x.relation.join.far) (s.fetchedRows x.target
      (some ⟨x.relation.join.far, distinctKeys (owners.map (Json.field · x.ownerColumn))⟩)
      false child) object)
    (ordered : SortKey.Preordered child.ordering (s.table x.target.name).rows)
    (near : ∀ owner ∈ owners, s.JoinValue r (Json.field owner x.ownerColumn))
    (far : ∀ row ∈ (s.table x.target.name).rows,
      s.JoinValue r (Json.field row x.relation.join.far))
    {owner : Row} (howner : owner ∈ owners) {parent : Row}
    (hparent : Json.field parent x.ownerColumn = Json.field owner x.ownerColumn) :
    x.directMatches level parent =
      (s.levelRows x.target child fun row => (Json.field owner x.ownerColumn).joins
        (Json.field row x.relation.join.far)).map object := by
  rw [directMatches_of_shows hlevel, hparent]
  congr 1
  refine filter_levelRows ordered ?_
  intro row hrow joined
  refine holds_of_joins joins ?_ (far row hrow) (List.mem_map_of_mem howner) joined
  intro v hv
  obtain ⟨other, hother, rfl⟩ := List.mem_map.mp hv
  exact near other hother

/-- The links lead from the owners' keys through the stored rows of the middle entity. -/
def LinkedBy (s : MemoryStore) (x : Expansion) (via : Relation) (middle : Entity)
    (owners : List Row) (links : List (String × String × Json)) : Prop :=
  ∀ owner key target, (owner, key, target) ∈ links ↔
    ∃ between ∈ (s.table middle.name).rows,
      (⟨via.join.far, distinctKeys (owners.map (Json.field · x.ownerColumn))⟩ :
        KeyFilter).holds between = true ∧
      (Json.field between via.join.far).joinKey = some owner ∧
      target = Json.field between x.relation.join.near ∧ target.joinKey = some key

theorem fetchLinks_source (x : Expansion) (via : Relation) (middle : Entity)
    (parents : List Row) :
    ∃ links, fetchLinks s.source x via middle parents = pure links ∧
      s.LinkedBy x via middle parents links := by
  have columns : ([x.relation.join.near].foldl addName [via.join.far]).Nodup :=
    nodup_foldl_addName (List.nodup_singleton _)
  have kept : ∀ row : Row, ∀ c, c = via.join.far ∨ c = x.relation.join.near →
      Json.field (projectRow (addName [via.join.far] x.relation.join.near) row) c =
        Json.field row c := by
    intro row c hc
    have member : c ∈ [x.relation.join.near].foldl addName [via.join.far] :=
      mem_foldl_addName.mpr (by simpa using hc)
    exact projectRow_of_nodup columns row ▸ Json.field_map _ _ member
  unfold fetchLinks LinkedBy
  set keys := distinctKeys (parents.map (Json.field · x.ownerColumn)) with hkeys
  by_cases empty : keys.isEmpty = true
  · refine ⟨[], by simp [empty], ?_⟩
    intro owner key target
    have none_holds : ∀ row : Row, (⟨via.join.far, keys⟩ : KeyFilter).holds row = false := by
      intro row
      simp [KeyFilter.holds, List.isEmpty_iff.mp empty]
    simp [none_holds]
  · refine ⟨_, by simp only [if_neg empty]; rfl, ?_⟩
    intro owner key target
    rw [mem_linksOf]
    constructor
    · intro h
      obtain ⟨row, member, hown, rfl, hkey⟩ := h
      obtain ⟨between, stored, holds, rfl⟩ := (LevelQuery.mem_answer rfl rfl).mp member
      rw [kept between _ (.inl rfl)] at hown
      rw [kept between _ (.inr rfl)] at hkey ⊢
      exact ⟨between, stored, by simpa [LevelQuery.holds] using holds, hown, rfl, hkey⟩
    · intro h
      obtain ⟨between, stored, holds, hown, rfl, hkey⟩ := h
      refine ⟨_, (LevelQuery.mem_answer rfl rfl).mpr ⟨between, stored, ?_, rfl⟩, ?_⟩
      · simpa [LevelQuery.holds] using holds
      · rw [kept between _ (.inl rfl), kept between _ (.inr rfl)]
        exact ⟨hown, rfl, hkey⟩

section Links

variable {x : Expansion} {via : Relation} {middle : Entity} {owners : List Row}
  {links : List (String × String × Json)} {owner : Row} {related : Row → Bool}

/-- The rows that are related to an owner are those that the links lead to from its key. -/
theorem related_iff_linked (joins : s.JoinsEqual r)
    (hlinks : s.LinkedBy x via middle owners links)
    (near : ∀ owner ∈ owners, s.JoinValue r (Json.field owner x.ownerColumn))
    (between : ∀ row ∈ (s.table middle.name).rows, s.JoinValue r (Json.field row via.join.far))
    (howner : owner ∈ owners)
    (hrelated : ∀ row, related row = true ↔ ∃ between ∈ (s.table middle.name).rows,
      (Json.field owner x.ownerColumn).joins (Json.field between via.join.far) = true ∧
      (Json.field between x.relation.join.near).joins
        (Json.field row x.relation.join.far) = true) (row : Row) :
    related row = true ↔ ∃ own key target,
      (Json.field owner x.ownerColumn).joinKey = some own ∧
      (Json.field row x.relation.join.far).joinKey = some key ∧ (own, key, target) ∈ links := by
  rw [hrelated]
  constructor
  · intro h
    obtain ⟨middleRow, stored, first, second⟩ := h
    obtain ⟨own, hown, hvia⟩ := Json.joins_iff.mp first
    obtain ⟨key, hnear, hkey⟩ := Json.joins_iff.mp second
    refine ⟨own, key, _, hown, hkey,
      (hlinks own key _).mpr ⟨middleRow, stored, ?_, hvia, rfl, hnear⟩⟩
    refine holds_of_joins joins ?_ (between middleRow stored) (List.mem_map_of_mem howner) first
    intro v hv
    obtain ⟨other, hother, rfl⟩ := List.mem_map.mp hv
    exact near other hother
  · intro h
    obtain ⟨own, key, target, hown, hkey, link⟩ := h
    obtain ⟨middleRow, stored, _, hvia, rfl, hnear⟩ := (hlinks own key target).mp link
    exact ⟨middleRow, stored, Json.joins_iff.mpr ⟨own, hown, hvia⟩,
      Json.joins_iff.mpr ⟨key, hnear, hkey⟩⟩

/-- The level below is restricted to keys that are linked, which leaves every linked row in. -/
theorem holds_of_linked (joins : s.JoinsEqual r)
    (hlinks : s.LinkedBy x via middle owners links)
    (between : ∀ row ∈ (s.table middle.name).rows,
      s.JoinValue r (Json.field row x.relation.join.near))
    {row : Row} (far : s.JoinValue r (Json.field row x.relation.join.far)) {own key : String}
    {target : Json} (hkey : (Json.field row x.relation.join.far).joinKey = some key)
    (link : (own, key, target) ∈ links) :
    (⟨x.relation.join.far, distinctKeys (links.map (·.2.2))⟩ : KeyFilter).holds row = true := by
  obtain ⟨_, _, _, _, _, htarget⟩ := (hlinks own key target).mp link
  refine holds_of_joins joins ?_ far (List.mem_map_of_mem link)
    (Json.joins_iff.mpr ⟨key, htarget, hkey⟩)
  intro v hv
  obtain ⟨⟨own, key, target⟩, link, rfl⟩ := List.mem_map.mp hv
  obtain ⟨middleRow, stored, _, _, htarget, _⟩ := (hlinks own key target).mp link
  exact htarget ▸ between middleRow stored

/-- What an owner receives of a level that is fetched for all keys that the links lead to. -/
theorem throughMatches_fetched (joins : s.JoinsEqual r) {level : LevelRows} {child : FetchPlan}
    {object : Row → Row}
    (hlinks : s.LinkedBy x via middle owners links)
    (hlevel : level.Shows (some x.relation.join.far) (s.fetchedRows x.target
      (some ⟨x.relation.join.far, distinctKeys (links.map (·.2.2))⟩) false child) object)
    (ordered : SortKey.Preordered child.ordering (s.table x.target.name).rows)
    (near : ∀ owner ∈ owners, s.JoinValue r (Json.field owner x.ownerColumn))
    (between : ∀ row ∈ (s.table middle.name).rows,
      s.JoinValue r (Json.field row via.join.far) ∧
      s.JoinValue r (Json.field row x.relation.join.near))
    (far : ∀ row ∈ (s.table x.target.name).rows,
      s.JoinValue r (Json.field row x.relation.join.far))
    (howner : owner ∈ owners) {parent : Row}
    (hparent : Json.field parent x.ownerColumn = Json.field owner x.ownerColumn)
    (hrelated : ∀ row, related row = true ↔ ∃ between ∈ (s.table middle.name).rows,
      (Json.field owner x.ownerColumn).joins (Json.field between via.join.far) = true ∧
      (Json.field between x.relation.join.near).joins
        (Json.field row x.relation.join.far) = true) :
    x.throughMatches links level parent =
      (firstPerKey x.relation.join.far (s.levelRows x.target child related)).map object := by
  have linked := related_iff_linked joins hlinks near (fun row h => (between row h).1) howner
    hrelated
  have sub : ∀ row ∈ (s.table x.target.name).rows, related row = true →
      (⟨x.relation.join.far, distinctKeys (links.map (·.2.2))⟩ : KeyFilter).holds row = true := by
    intro row hrow own
    obtain ⟨_, _, _, _, hkey, link⟩ := (linked row).mp own
    exact holds_of_linked joins hlinks (fun row h => (between row h).2) (far row hrow) hkey link
  rw [throughMatches_of_shows hlevel fun row _ => by rw [hparent]; exact linked row]
  exact congrArg (fun rows => (firstPerKey x.relation.join.far rows).map object)
    (filter_levelRows ordered sub)

end Links

/-- The value of a relation for an owner, read for this owner alone. -/
def childValue (r : Registry) (s : MemoryStore) (e : Entity) (rel : Relation) (target : Entity)
    (child : FetchPlan) (owner : Row) : Json :=
  rel.present ((s.childRows r e rel target child owner).map fun row =>
    .object (s.objectOf r target row child))

section Attach

variable {entities : List Entity} {name : String} {child : FetchPlan} {rel : Relation}
  {target : Entity} {rest : List (String × FetchPlan)} {owners : List Row} {full : Row → Row}

theorem distinctKeys_of_kept {column : String}
    (kept : ∀ owner ∈ owners, Json.field (full owner) column = Json.field owner column) :
    distinctKeys ((owners.map full).map (Json.field · column)) =
      distinctKeys (owners.map (Json.field · column)) := by
  rw [List.map_map]
  exact congrArg distinctKeys (List.map_congr_left kept)

private theorem attachAll_direct (joins : s.JoinsEqual r) (has : r.Has e)
    (hrel : e.relation? name = some rel) (htarget : r.get? rel.target = some target)
    (direct : rel.cardinality.isThrough = false)
    (children : ∀ keys, s.Fetches r target (some ⟨rel.join.far, keys⟩) false child)
    (ordered : SortKey.Preordered child.ordering (s.table target.name).rows)
    (stored : ∀ owner ∈ owners, owner ∈ (s.table e.name).rows)
    (fresh : ∀ owner ∈ owners, child.outputName name ∉ Dict.keys (full owner))
    (kept : ∀ owner ∈ owners,
      Json.field (full owner) rel.join.near = Json.field owner rel.join.near) :
    attachAll s.source r e (owners.map full) ((name, child) :: rest) =
      attachAll s.source r e (owners.map fun owner => full owner ++
        [(child.outputName name, s.childValue r e rel target child owner)]) rest := by
  obtain ⟨level, fetched, shows⟩ :=
    children (distinctKeys (owners.map (Json.field · rel.join.near)))
  have expanded := expansion?_direct child hrel htarget direct
  have attached : (Expansion.direct (child.outputName name) rel target).attach child
      ((Expansion.direct (child.outputName name) rel target).directMatches level)
      (owners.map full) = owners.map fun owner => full owner ++
        [(child.outputName name, s.childValue r e rel target child owner)] := by
    refine Expansion.attach_eq _ child fresh ?_
    intro owner howner
    have own : s.related r e rel owner = fun row =>
        (Json.field owner rel.join.near).joins (Json.field row rel.join.far) :=
      funext (related_direct direct owner)
    have matched := directMatches_fetched
      (x := .direct (child.outputName name) rel target) joins shows ordered
      (fun owner howner => joinValue_near has hrel direct (stored owner howner))
      (fun row hrow => joinValue_far has hrel htarget hrow) howner (kept owner howner)
    rw [matched, Expansion.shape_map, childValue, childRows, own]
    simp only [direct]
    rfl
  rw [attachAll, expanded]
  simp only [distinctKeys_of_kept kept]
  rw [fetched, pure_bind, attached]

private theorem attachAll_through (joins : s.JoinsEqual r) (has : r.Has e)
    (hrel : e.relation? name = some rel) (htarget : r.get? rel.target = some target)
    {via : String} (through : rel.cardinality = .manyThrough via) {link : Relation}
    (hlink : e.relation? via = some link) (direct : link.cardinality.isThrough = false)
    {middle : Entity} (hmiddle : r.get? link.target = some middle)
    (children : ∀ keys, s.Fetches r target (some ⟨rel.join.far, keys⟩) false child)
    (ordered : SortKey.Preordered child.ordering (s.table target.name).rows)
    (stored : ∀ owner ∈ owners, owner ∈ (s.table e.name).rows)
    (fresh : ∀ owner ∈ owners, child.outputName name ∉ Dict.keys (full owner))
    (kept : ∀ owner ∈ owners,
      Json.field (full owner) link.join.near = Json.field owner link.join.near) :
    attachAll s.source r e (owners.map full) ((name, child) :: rest) =
      attachAll s.source r e (owners.map fun owner => full owner ++
        [(child.outputName name, s.childValue r e rel target child owner)]) rest := by
  obtain ⟨links, asked, hlinks⟩ := fetchLinks_source (s := s)
    (.through (child.outputName name) rel target link) link middle (owners.map full)
  rw [LinkedBy, distinctKeys_of_kept kept] at hlinks
  obtain ⟨level, fetched, shows⟩ := children (distinctKeys (links.map (·.2.2)))
  have expanded := expansion?_through child hrel htarget through hlink
  have attached : (Expansion.through (child.outputName name) rel target link).attach child
      ((Expansion.through (child.outputName name) rel target link).throughMatches links level)
      (owners.map full) = owners.map fun owner => full owner ++
        [(child.outputName name, s.childValue r e rel target child owner)] := by
    refine Expansion.attach_eq _ child fresh ?_
    intro owner howner
    have between : ∀ row ∈ (s.table middle.name).rows,
        s.JoinValue r (Json.field row link.join.far) ∧
        s.JoinValue r (Json.field row rel.join.near) :=
      fun row hrow => ⟨joinValue_far has hlink hmiddle hrow,
        ⟨middle, _, row, .middle has hrel through hlink hmiddle, hrow, rfl⟩⟩
    have matched := throughMatches_fetched
      (x := .through (child.outputName name) rel target link) joins hlinks shows ordered
      (fun owner howner => joinValue_near has hlink direct (stored owner howner)) between
      (fun row hrow => joinValue_far has hrel htarget hrow) howner (kept owner howner)
      (related_through through hlink hmiddle owner)
    rw [matched, Expansion.shape_map, childValue, childRows]
    simp only [through, Cardinality.isThrough]
    rfl
  rw [attachAll, expanded]
  simp only [hmiddle]
  rw [asked, pure_bind]
  rw [fetched, pure_bind, attached]

end Attach

section Level

variable {entities : List Entity}

theorem mem_expansions {relations : List (String × FetchPlan)} {x : Expansion} :
    x ∈ r.expansions e relations ↔
      ∃ entry ∈ relations, r.expansion? e entry.1 entry.2 = some x :=
  List.mem_filterMap

theorem hasScalar_ownerColumn (accepted : Registry.ofList entities = .ok r)
    (declared : ∀ e column, r.JoinColumn e column → e.hasScalar column = true) (has : r.Has e)
    {relations : List (String × FetchPlan)} {x : Expansion}
    (h : x ∈ r.expansions e relations) : e.hasScalar x.ownerColumn = true := by
  obtain ⟨⟨name, child⟩, _, expanded⟩ := mem_expansions.mp h
  dsimp only at expanded
  cases hrel : e.relation? name with
  | none => simp [Registry.expansion?, hrel] at expanded
  | some rel =>
      obtain ⟨target, htarget⟩ := Registry.exists_target accepted has hrel
      cases expansion?_cases accepted has hrel htarget child with
      | inl h =>
          obtain ⟨direct, own⟩ := h
          cases own.symm.trans expanded
          exact declared e _ (.near has hrel direct)
      | inr h =>
          obtain ⟨_, _, _, _, hlink, direct, _, own⟩ := h
          cases own.symm.trans expanded
          exact declared e _ (.near has hlink direct)

private theorem attachAll_cons (accepted : Registry.ofList entities = .ok r)
    (joins : s.JoinsEqual r) (has : r.Has e) {name : String} {child : FetchPlan} {rel : Relation}
    {target : Entity} (hrel : e.relation? name = some rel)
    (htarget : r.get? rel.target = some target)
    (children : ∀ keys, s.Fetches r target (some ⟨rel.join.far, keys⟩) false child)
    (ordered : SortKey.Preordered child.ordering (s.table target.name).rows)
    {rest : List (String × FetchPlan)} {owners : List Row} {full : Row → Row}
    (stored : ∀ owner ∈ owners, owner ∈ (s.table e.name).rows)
    (fresh : ∀ owner ∈ owners, child.outputName name ∉ Dict.keys (full owner))
    (kept : ∀ owner ∈ owners, ∀ x ∈ r.expansions e ((name, child) :: rest),
      Json.field (full owner) x.ownerColumn = Json.field owner x.ownerColumn) :
    attachAll s.source r e (owners.map full) ((name, child) :: rest) =
      attachAll s.source r e (owners.map fun owner => full owner ++
        [(child.outputName name, s.childValue r e rel target child owner)]) rest := by
  cases expansion?_cases accepted has hrel htarget child with
  | inl h =>
      obtain ⟨direct, expanded⟩ := h
      refine attachAll_direct joins has hrel htarget direct children ordered stored fresh ?_
      intro owner howner
      exact kept owner howner _ (mem_expansions.mpr ⟨_, List.mem_cons_self, expanded⟩)
  | inr h =>
      obtain ⟨via, link, middle, through, hlink, direct, hmiddle, expanded⟩ := h
      refine attachAll_through joins has hrel htarget through hlink direct hmiddle children
        ordered stored fresh ?_
      intro owner howner
      exact kept owner howner _ (mem_expansions.mpr ⟨_, List.mem_cons_self, expanded⟩)

/-- Relation after relation is written behind what the owners hold. -/
theorem attachAll_eq (accepted : Registry.ofList entities = .ok r)
    (declared : r.ColumnsDeclared) (joins : s.JoinsEqual r) (has : r.Has e)
    {relations : List (String × FetchPlan)}
    (resolved : ∀ entry ∈ relations, ∃ rel,
      e.resolve? (entry.2.outputName entry.1) = some (.relation entry.1 rel))
    (distinct : (FetchPlan.outputs relations).Nodup)
    (children : ∀ entry ∈ relations, ∀ rel target, e.relation? entry.1 = some rel →
      r.get? rel.target = some target →
      SortKey.Preordered entry.2.ordering (s.table target.name).rows ∧
        ∀ keys, s.Fetches r target (some ⟨rel.join.far, keys⟩) false entry.2)
    {owners : List Row} {full : Row → Row}
    (stored : ∀ owner ∈ owners, owner ∈ (s.table e.name).rows)
    (fresh : ∀ owner ∈ owners, ∀ name ∈ FetchPlan.outputs relations,
      name ∉ Dict.keys (full owner))
    (kept : ∀ owner ∈ owners, ∀ x ∈ r.expansions e relations,
      Json.field (full owner) x.ownerColumn = Json.field owner x.ownerColumn) :
    attachAll s.source r e (owners.map full) relations =
      pure (owners.map fun owner => full owner ++ s.entriesOf r e owner relations) := by
  induction relations generalizing full with
  | nil => simp [attachAll, entriesOf]
  | cons entry rest ih =>
      obtain ⟨name, child⟩ := entry
      obtain ⟨rel, found⟩ := resolved _ List.mem_cons_self
      have hrel : e.relation? name = some rel := Entity.relation?_of_resolve? found
      obtain ⟨target, htarget⟩ := Registry.exists_target accepted has hrel
      obtain ⟨ordered, fetches⟩ := children _ List.mem_cons_self rel target hrel htarget
      obtain ⟨new, distinct⟩ := List.nodup_cons.mp distinct
      rw [attachAll_cons accepted joins has hrel htarget fetches ordered stored
        (fun owner howner => fresh owner howner _ List.mem_cons_self) kept]
      have below := @ih (fun entry h => resolved entry (List.mem_cons_of_mem _ h)) distinct
        (fun entry h => children entry (List.mem_cons_of_mem _ h))
        fun owner => full owner ++
          [(child.outputName name, s.childValue r e rel target child owner)]
      rw [below]
      · simp [entriesOf, hrel, htarget, childValue]
      · intro owner howner other hother
        have old := fresh owner howner other (List.mem_cons_of_mem _ hother)
        have apart : other ≠ child.outputName name := by
          intro same
          subst same
          exact new hother
        simpa [Dict.keys, apart] using old
      · intro owner howner x hx
        have member : x ∈ r.expansions e ((name, child) :: rest) := by
          obtain ⟨entry, hentry, expanded⟩ := mem_expansions.mp hx
          exact mem_expansions.mpr ⟨entry, List.mem_cons_of_mem _ hentry, expanded⟩
        have apart : child.outputName name ≠ x.ownerColumn := by
          intro same
          have scalar := hasScalar_ownerColumn accepted declared.join has member
          rw [← same, Entity.not_hasScalar_of_resolve? found] at scalar
          cases scalar
        rw [← kept owner howner x member, Json.field, Json.field, Dict.get?_append]
        simp [Dict.get?, apart]

/-- The columns that a level asks for, those selected before those needed for joining. -/
def levelColumns (r : Registry) (e : Entity) (key : Option KeyFilter) (plan : FetchPlan) :
    List String :=
  ((r.expansions e plan.relations).map (·.ownerColumn) ++
    (key.map (·.column)).toList).foldl addName (plan.columnsOf e)

theorem hasScalar_of_mem_levelColumns (accepted : Registry.ofList entities = .ok r)
    (declared : r.ColumnsDeclared) (has : r.Has e) {key : Option KeyFilter}
    (keyed : ∀ k ∈ key, e.hasScalar k.column = true) {fields : List String}
    (selected : plan.selected? = some fields) {column : String}
    (h : column ∈ levelColumns r e key plan) : e.hasScalar column = true := by
  cases mem_foldl_addName.mp h with
  | inl h =>
      rw [FetchPlan.columnsOf, selected] at h
      exact (List.mem_filter.mp h).2
  | inr h =>
      cases List.mem_append.mp h with
      | inl h =>
          obtain ⟨x, hx, rfl⟩ := List.mem_map.mp h
          exact hasScalar_ownerColumn accepted declared.join has hx
      | inr h =>
          obtain ⟨k, hk, rfl⟩ := Option.map_eq_some_iff.mp (Option.mem_toList.mp h)
          exact keyed k hk

theorem fetchedRows_of_empty {key : Option KeyFilter} (empty : key.any (·.keys.isEmpty) = true)
    {root : Bool} : s.fetchedRows e key root plan = [] := by
  cases key with
  | none => cases empty
  | some k =>
      have noKeys : k.keys = [] := List.isEmpty_iff.mp empty
      have nothing : (s.levelRows e plan fun row => (some k).all (·.holds row)) = [] := by
        simp [levelRows, KeyFilter.holds, noKeys]
      rw [fetchedRows, nothing]
      cases root <;> simp [page_nil]

theorem mem_of_mem_fetchedRows {key : Option KeyFilter} {root : Bool} {row : Row}
    (h : row ∈ s.fetchedRows e key root plan) : row ∈ (s.table e.name).rows := by
  cases root with
  | false => exact mem_of_mem_levelRows h
  | true => exact mem_of_mem_levelRows (mem_of_mem_page h)

theorem answer_level (columns : List String) (key : Option KeyFilter) (root : Bool) :
    LevelQuery.answer
      { entity := e, columns := columns, predicates := plan.predicates, key := key,
        order := plan.ordering, limit := if root then plan.limit? else none,
        offset := if root then plan.offset? else none } (s.table e.name).rows =
      (s.queriedRows e key root plan).map (projectRow columns) := by
  have holds : ∀ row : Row, LevelQuery.holds
      { entity := e, columns := columns, predicates := plan.predicates, key := key,
        order := plan.ordering, limit := if root then plan.limit? else none,
        offset := if root then plan.offset? else none } row =
      (key.all (·.holds row) && plan.predicates.all (·.holds row)) := by
    intro row
    cases key <;> rfl
  rw [LevelQuery.answer, List.filter_congr fun row _ => holds row, queriedRows]
  cases root <;> rfl

/-- A level whose keys are not empty is one query, to which the relations are attached. -/
theorem fetchLevel_query {key : Option KeyFilter} (keys : key.any (·.keys.isEmpty) = false)
    (root : Bool) :
    fetchLevel s.source r e key root plan =
      (attachAll s.source r e
        ((s.queriedRows e key root plan).map (projectRow (levelColumns r e key plan)))
        plan.relations) >>= fun rows =>
          pure ⟨rows, (levelColumns r e key plan).filter fun c =>
            !(plan.columnsOf e).contains c⟩ := by
  obtain ⟨shownAs, relations, modifiers⟩ := plan
  rw [← answer_level, fetchLevel]
  simp only [keys]
  rfl

theorem mem_outputs_of_mem_entriesOf {row : Row} {relations : List (String × FetchPlan)}
    {name : String} (h : name ∈ Dict.keys (s.entriesOf r e row relations)) :
    name ∈ FetchPlan.outputs relations := by
  induction relations with
  | nil => simp [entriesOf, Dict.keys] at h
  | cons entry rest ih =>
      obtain ⟨own, child⟩ := entry
      rw [entriesOf] at h
      split at h
      · exact List.mem_cons_of_mem _ (ih h)
      · split at h
        · exact List.mem_cons_of_mem _ (ih h)
        · cases h with
          | head => exact List.mem_cons_self
          | tail _ h => exact List.mem_cons_of_mem _ (ih h)

/-- Taking the columns for joining out again leaves the object of the row. -/
theorem stripColumns_level {key : Option KeyFilter} (nodup : (plan.columnsOf e).Nodup)
    {row : Row}
    (apart : ∀ c ∈ levelColumns r e key plan, c ∉ Dict.keys (s.entriesOf r e row plan.relations)) :
    stripColumns ((levelColumns r e key plan).filter fun c => !(plan.columnsOf e).contains c)
      (((levelColumns r e key plan).map fun c => (c, Json.field row c)) ++
        s.entriesOf r e row plan.relations) = s.objectOf r e row plan := by
  generalize hstrip :
    (levelColumns r e key plan).filter (fun c => !(plan.columnsOf e).contains c) = strip
  have split : levelColumns r e key plan = plan.columnsOf e ++ strip := by
    rw [← hstrip]
    exact foldl_addName_eq nodup
  have own : ∀ c ∈ plan.columnsOf e, c ∉ strip := by
    intro c hc hs
    rw [← hstrip] at hs
    simpa [hc] using (List.mem_filter.mp hs).2
  have kept : ((plan.columnsOf e).map fun c => (c, Json.field row c)).filter
      (fun entry => !strip.contains entry.1) =
      (plan.columnsOf e).map fun c => (c, Json.field row c) := by
    refine List.filter_eq_self.mpr ?_
    intro entry h
    obtain ⟨c, hc, rfl⟩ := List.mem_map.mp h
    simpa using own c hc
  have removed : (strip.map fun c => (c, Json.field row c)).filter
      (fun entry => !strip.contains entry.1) = [] := by
    refine List.filter_eq_nil_iff.mpr ?_
    intro entry h
    obtain ⟨c, hc, rfl⟩ := List.mem_map.mp h
    simpa using hc
  have shown : (s.entriesOf r e row plan.relations).filter
      (fun entry => !strip.contains entry.1) = s.entriesOf r e row plan.relations := by
    refine List.filter_eq_self.mpr ?_
    intro entry h
    have absent : entry.1 ∉ strip := by
      intro hs
      exact apart entry.1 (split ▸ List.mem_append_right _ hs) (List.mem_map_of_mem h)
    simpa using absent
  rw [stripColumns_eq_filter, split, List.map_append, List.filter_append, List.filter_append,
    kept, removed, shown, List.append_nil]
  cases plan
  rfl

theorem fetchLevel_no_keys {key : Option KeyFilter} (empty : key.any (·.keys.isEmpty) = true)
    (root : Bool) : fetchLevel s.source r e key root plan = pure ⟨[], []⟩ := by
  obtain ⟨shownAs, relations, modifiers⟩ := plan
  rw [fetchLevel]
  simp only [empty]
  rfl

theorem fetches_of_no_keys {key : Option KeyFilter} (empty : key.any (·.keys.isEmpty) = true)
    (root : Bool) : s.Fetches r e key root plan := by
  refine ⟨⟨[], []⟩, fetchLevel_no_keys empty root, id, ?_, ?_⟩
  · rw [fetchedRows_of_empty empty]
    rfl
  · rw [fetchedRows_of_empty empty]
    simp

/-- The levels below are fetched for the owners that this one has. -/
theorem attachAll_level (accepted : Registry.ofList entities = .ok r)
    (declared : r.ColumnsDeclared) (joins : s.JoinsEqual r) (has : r.Has e)
    {key : Option KeyFilter} (root : Bool) (ownNodup : (plan.columnsOf e).Nodup)
    (names : (Dict.keys plan.relations).Nodup)
    (resolved : ∀ entry ∈ plan.relations, ∃ rel,
      e.resolve? (entry.2.outputName entry.1) = some (.relation entry.1 rel))
    (children : ∀ entry ∈ plan.relations, ∀ rel target, e.relation? entry.1 = some rel →
      r.get? rel.target = some target →
      SortKey.Preordered entry.2.ordering (s.table target.name).rows ∧
        ∀ keys, s.Fetches r target (some ⟨rel.join.far, keys⟩) false entry.2)
    (apart : ∀ name ∈ FetchPlan.outputs plan.relations, name ∉ levelColumns r e key plan) :
    attachAll s.source r e
      ((s.fetchedRows e key root plan).map (projectRow (levelColumns r e key plan)))
      plan.relations =
      pure ((s.fetchedRows e key root plan).map fun row =>
        ((levelColumns r e key plan).map fun c => (c, Json.field row c)) ++
          s.entriesOf r e row plan.relations) := by
  have projected : projectRow (levelColumns r e key plan) =
      fun row => (levelColumns r e key plan).map fun c => (c, Json.field row c) :=
    funext fun row => projectRow_of_nodup (nodup_foldl_addName ownNodup) row
  rw [projected]
  refine attachAll_eq accepted declared joins has resolved
    (FetchPlan.nodup_outputs names resolved) children
    (fun owner h => mem_of_mem_fetchedRows h) ?_ ?_
  · intro owner _ name shown
    simpa [Dict.keys, Function.comp_def] using apart name shown
  · intro owner _ x hx
    refine Json.field_map _ _ (mem_foldl_addName.mpr (.inr ?_))
    exact List.mem_append_left _ (List.mem_map_of_mem hx)

/-- Fetching a level is reading it row by row, at every depth of a plan that fits. -/
theorem fetches_of_fits (accepted : Registry.ofList entities = .ok r)
    (declared : r.ColumnsDeclared) (joins : s.JoinsEqual r) (fits : plan.Fits r e)
    (has : r.Has e) (ordered : s.OrderedFor r e plan) (key : Option KeyFilter)
    (keyed : ∀ k ∈ key, e.hasScalar k.column = true) (root : Bool) :
    s.Fetches r e key root plan := by
  induction fits generalizing key root with
  | @level e plan fields selected nodup scalars names resolved _ ih =>
      cases empty : key.any (·.keys.isEmpty) with
      | true => exact fetches_of_no_keys empty root
      | false =>
          have scalar : ∀ c ∈ levelColumns r e key plan, e.hasScalar c = true :=
            fun c h => hasScalar_of_mem_levelColumns accepted declared has keyed selected h
          have ownNodup : (plan.columnsOf e).Nodup := by
            rw [FetchPlan.columnsOf, selected]
            exact nodup.filter _
          have children : ∀ entry ∈ plan.relations, ∀ rel target,
              e.relation? entry.1 = some rel → r.get? rel.target = some target →
              SortKey.Preordered entry.2.ordering (s.table target.name).rows ∧
                ∀ keys, s.Fetches r target (some ⟨rel.join.far, keys⟩) false entry.2 := by
            intro entry member rel target hrel htarget
            have below : s.OrderedFor r target entry.2 :=
              fun e' plan' reaches => ordered e' plan' (.relation member hrel htarget reaches)
            refine ⟨below target entry.2 .root, ?_⟩
            intro keys
            refine ih entry member rel target hrel htarget ⟨_, htarget⟩ below _ ?_ false
            intro k hk
            cases hk
            exact declared.join target _ (.far has hrel htarget)
          -- The columns of the level are scalars and its relations are not.
          have apart : ∀ name ∈ FetchPlan.outputs plan.relations,
              name ∉ levelColumns r e key plan := by
            intro name shown member
            have relation := FetchPlan.not_hasScalar_of_mem_outputs resolved shown
            rw [scalar name member] at relation
            cases relation
          have attached := attachAll_level accepted declared joins has root ownNodup names
            resolved children apart
          have fetched : fetchLevel s.source r e key root plan = _ := fetchLevel_query empty root
          rw [queriedRows_eq (ordered e plan .root), attached, pure_bind] at fetched
          refine ⟨_, fetched, _, rfl, ?_⟩
          intro row _
          refine ⟨stripColumns_level ownNodup ?_, ?_⟩
          · intro c hc shown
            exact apart c (mem_outputs_of_mem_entriesOf shown) hc
          · intro c hc
            refine Json.field_map_append _ _ _ (mem_foldl_addName.mpr (.inr ?_))
            exact List.mem_append_right _ (Option.mem_toList.mpr hc)

end Level
end MemoryStore
end EntityGraph
