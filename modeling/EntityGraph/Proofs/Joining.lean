import EntityGraph.Proofs.RowByRow

/-!
How the rows of one fetched level are handed out. The level was fetched for many owners and has
columns that are there for joining only; what each owner receives is stated on the stored rows.
-/

namespace EntityGraph

theorem mem_of_mem_distinctKeysFrom {seen : List String} {values : List Json} {v : Json}
    (h : v ∈ distinctKeysFrom seen values) : v ∈ values := by
  induction values generalizing seen with
  | nil => exact h
  | cons first rest ih =>
      rw [distinctKeysFrom] at h
      split at h
      · exact List.mem_cons_of_mem _ (ih h)
      · split at h
        · exact List.mem_cons_of_mem _ (ih h)
        · cases h with
          | head => exact List.mem_cons_self
          | tail _ h => exact List.mem_cons_of_mem _ (ih h)

private theorem exists_mem_distinctKeysFrom {seen : List String} {values : List Json} {v : Json}
    {key : String} (h : v ∈ values) (hkey : v.joinKey = some key) (unseen : key ∉ seen) :
    ∃ w ∈ distinctKeysFrom seen values, w.joinKey = some key := by
  induction values generalizing seen with
  | nil => simp at h
  | cons first rest ih =>
      by_cases same : first.joinKey = some key
      · refine ⟨first, ?_, same⟩
        have fresh : ¬ seen.contains key = true := by simpa using unseen
        simp only [distinctKeysFrom, same, if_neg fresh]
        exact List.mem_cons_self
      · have other : v ∈ rest := by
          cases h with
          | head => exact absurd hkey same
          | tail _ h => exact h
        rw [distinctKeysFrom]
        split
        · exact ih other unseen
        · rename_i own hown
          split
          · exact ih other unseen
          · have unseen' : key ∉ own :: seen := by
              intro member
              cases member with
              | head => exact same hown
              | tail _ member => exact unseen member
            obtain ⟨w, member, hw⟩ := ih other unseen'
            exact ⟨w, List.mem_cons_of_mem _ member, hw⟩

/-- Every join key is represented among the distinct values. -/
theorem exists_mem_distinctKeys {values : List Json} {v : Json} {key : String}
    (h : v ∈ values) (hkey : v.joinKey = some key) :
    ∃ w ∈ distinctKeys values, w.joinKey = some key :=
  exists_mem_distinctKeysFrom h hkey (by simp)

theorem mem_linksOf {via relation : Relation} {middle : List Row} {owner key : String}
    {target : Json} :
    (owner, key, target) ∈ linksOf via relation middle ↔
      ∃ row ∈ middle, (Json.field row via.join.far).joinKey = some owner ∧
        target = Json.field row relation.join.near ∧ target.joinKey = some key := by
  simp only [linksOf, List.mem_filterMap, Option.bind_eq_bind, Option.bind_eq_some_iff,
    Option.pure_def, Option.some.injEq, Prod.mk.injEq]
  constructor
  · intro h
    obtain ⟨row, member, own, hown, found, hfound, rfl, rfl, rfl⟩ := h
    exact ⟨row, member, hown, rfl, hfound⟩
  · intro h
    obtain ⟨row, member, hown, rfl, hkey⟩ := h
    exact ⟨row, member, owner, hown, key, hkey, rfl, rfl, rfl⟩

/-- The row has a wanted key that was not seen before. -/
private def wants (column : String) (wanted seen : List String) (row : Row) : Bool :=
  (Json.field row column).joinKey.any fun key => wanted.contains key && !seen.contains key

private theorem wants_cons {column : String} {wanted seen : List String} {child row : Row}
    {key : String} (h : (Json.field child column).joinKey = some key) :
    wants column wanted (key :: seen) row =
      (decide ((Json.field row column).joins (Json.field child column) = false) &&
        wants column wanted seen row) := by
  unfold wants Json.joins
  rw [h]
  cases (Json.field row column).joinKey with
  | none => simp
  | some own =>
      by_cases same : own = key
      · simp [same]
      · simp [same]

/-- The first child of each wanted key is the first row of its key among those wanted. -/
private theorem firstOfKeys_eq (column : String) (wanted seen : List String) (rows : List Row) :
    firstOfKeys column wanted seen rows =
      firstPerKey column (rows.filter (wants column wanted seen)) := by
  induction rows generalizing seen with
  | nil => rfl
  | cons child rest ih =>
      rw [firstOfKeys]
      cases hkey : (Json.field child column).joinKey with
      | none =>
          have skipped : ¬ wants column wanted seen child = true := by simp [wants, hkey]
          rw [List.filter_cons_of_neg skipped]
          exact ih seen
      | some key =>
          by_cases chosen : (wanted.contains key && !seen.contains key) = true
          · have kept : wants column wanted seen child = true := by simpa [wants, hkey] using chosen
            rw [List.filter_cons_of_pos kept, firstPerKey, List.eraseDupsBy_cons,
              List.filter_filter]
            simp only [chosen, ite_true]
            rw [ih, firstPerKey, List.filter_congr fun row _ => wants_cons hkey]
          · have skipped : ¬ wants column wanted seen child = true := by
              simpa [wants, hkey] using chosen
            rw [List.filter_cons_of_neg skipped]
            simp only [chosen]
            exact ih seen

private theorem firstOfKeys_map {column : String} {full : Row → Row} {rows : List Row}
    (h : ∀ row ∈ rows, Json.field (full row) column = Json.field row column)
    (wanted seen : List String) :
    firstOfKeys column wanted seen (rows.map full) =
      (firstOfKeys column wanted seen rows).map full := by
  induction rows generalizing seen with
  | nil => rfl
  | cons child rest ih =>
      have below := fun seen => ih (fun row hrow => h row (List.mem_cons_of_mem _ hrow)) seen
      rw [List.map_cons, firstOfKeys, firstOfKeys, h child List.mem_cons_self]
      split
      · exact below seen
      · split
        · rw [below, List.map_cons]
        · exact below seen

private theorem mem_of_mem_firstOfKeys {column : String} {wanted seen : List String}
    {rows : List Row} {row : Row} (h : row ∈ firstOfKeys column wanted seen rows) :
    row ∈ rows := by
  induction rows generalizing seen with
  | nil => exact h
  | cons child rest ih =>
      rw [firstOfKeys] at h
      split at h
      · exact List.mem_cons_of_mem _ (ih h)
      · split at h
        · cases h with
          | head => exact List.mem_cons_self
          | tail _ h => exact List.mem_cons_of_mem _ (ih h)
        · exact List.mem_cons_of_mem _ (ih h)

/-- Without its helper columns each row of the level is the object of a stored row, and the
join column is as stored. -/
def LevelRows.Shows (level : LevelRows) (column : Option String) (rows : List Row)
    (object : Row → Row) : Prop :=
  ∃ full : Row → Row, level.rows = rows.map full ∧
    ∀ row ∈ rows, stripColumns level.strip (full row) = object row ∧
      ∀ c ∈ column, Json.field (full row) c = Json.field row c

section Matches

variable {x : Expansion} {level : LevelRows} {rows : List Row} {object : Row → Row}

theorem directMatches_of_shows (h : level.Shows (some x.relation.join.far) rows object)
    (parent : Row) :
    x.directMatches level parent =
      (rows.filter fun row => (Json.field parent x.ownerColumn).joins
        (Json.field row x.relation.join.far)).map object := by
  obtain ⟨full, hrows, shown⟩ := h
  unfold Expansion.directMatches Json.joins
  cases (Json.field parent x.ownerColumn).joinKey with
  | none => simp
  | some key =>
      simp only [hrows, List.filter_map, List.map_map]
      have same : rows.filter ((fun child : Row => decide ((Json.field child
          x.relation.join.far).joinKey = some key)) ∘ full) =
          rows.filter fun row => (some key).isSome &&
            some key == (Json.field row x.relation.join.far).joinKey := by
        refine List.filter_congr ?_
        intro row hrow
        rw [Function.comp, (shown row hrow).2 _ rfl, Bool.eq_iff_iff]
        simp only [Option.isSome_some, Bool.true_and, beq_iff_eq, decide_eq_true_eq]
        exact eq_comm
      rw [same]
      refine List.map_congr_left ?_
      intro row hrow
      exact (shown row (List.mem_filter.mp hrow).1).1

/-- Through links, an owner receives one row for each key that is linked to it. -/
theorem throughMatches_of_shows (h : level.Shows (some x.relation.join.far) rows object)
    {links : List (String × String × Json)} {parent : Row} {linked : Row → Bool}
    (hlinked : ∀ row ∈ rows, linked row = true ↔ ∃ owner key target,
      (Json.field parent x.ownerColumn).joinKey = some owner ∧
      (Json.field row x.relation.join.far).joinKey = some key ∧ (owner, key, target) ∈ links) :
    x.throughMatches links level parent =
      (firstPerKey x.relation.join.far (rows.filter linked)).map object := by
  obtain ⟨full, hrows, shown⟩ := h
  unfold Expansion.throughMatches
  cases hown : (Json.field parent x.ownerColumn).joinKey with
  | none =>
      have nothing : rows.filter linked = [] := by
        refine List.filter_eq_nil_iff.mpr ?_
        intro row hrow found
        obtain ⟨owner, _, _, h, _⟩ := (hlinked row hrow).mp found
        rw [hown] at h
        cases h
      rw [nothing]
      rfl
  | some owner =>
      have kept : ∀ row ∈ rows, Json.field (full row) x.relation.join.far =
          Json.field row x.relation.join.far := fun row hrow => (shown row hrow).2 _ rfl
      have same : ∀ row ∈ rows, wants x.relation.join.far
          ((links.filter (·.1 = owner)).map (·.2.1)) [] row = linked row := by
        intro row hrow
        rw [Bool.eq_iff_iff, hlinked row hrow, hown, wants, Option.any_eq_true]
        constructor
        · intro h
          obtain ⟨key, hkey, found⟩ := h
          have found : key ∈ (links.filter (·.1 = owner)).map (·.2.1) := by simpa using found
          obtain ⟨⟨own, _, target⟩, member, rfl⟩ := List.mem_map.mp found
          obtain ⟨member, same⟩ := List.mem_filter.mp member
          have same : own = owner := by simpa using same
          exact ⟨owner, _, target, rfl, hkey, same ▸ member⟩
        · intro h
          obtain ⟨own, key, target, hown, hkey, member⟩ := h
          cases hown
          refine ⟨key, hkey, ?_⟩
          have found : key ∈ (links.filter (·.1 = owner)).map (·.2.1) :=
            List.mem_map.mpr ⟨_, List.mem_filter.mpr ⟨member, by simp⟩, rfl⟩
          simpa using found
      simp only [hrows]
      rw [firstOfKeys_map kept, List.map_map, ← List.filter_congr same, ← firstOfKeys_eq]
      refine List.map_congr_left ?_
      intro row hrow
      exact (shown row (mem_of_mem_firstOfKeys hrow)).1

end Matches

end EntityGraph
