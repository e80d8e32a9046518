import EntityGraph.Proofs.Dict
import EntityGraph.Store.Fetch

/-!
The columns of a level: which are asked for, what is left when some are taken out again, and the
pages of its rows.
-/

namespace EntityGraph

theorem mem_foldl_addName {names start : List String} {c : String} :
    c ∈ names.foldl addName start ↔ c ∈ start ∨ c ∈ names := by
  induction names generalizing start with
  | nil => simp
  | cons name rest ih =>
      have first : c ∈ addName start name ↔ c ∈ start ∨ c = name := by
        unfold addName
        split
        · rename_i present
          rw [List.contains_iff_mem] at present
          exact (or_iff_left_of_imp (fun h => h ▸ present)).symm
        · simp
      rw [List.foldl_cons, ih, first, List.mem_cons, or_assoc]

theorem nodup_foldl_addName {names start : List String} (h : start.Nodup) :
    (names.foldl addName start).Nodup := by
  induction names generalizing start with
  | nil => exact h
  | cons name rest ih =>
      refine ih ?_
      unfold addName
      split
      · exact h
      · rename_i absent
        rw [List.contains_iff_mem] at absent
        refine List.nodup_append.mpr ⟨h, by simp, ?_⟩
        intro a ha b hb hab
        rw [List.mem_singleton] at hb
        exact absent (hb ▸ hab ▸ ha)

private theorem prefix_foldl_addName (names start : List String) :
    ∃ extra, names.foldl addName start = start ++ extra := by
  induction names generalizing start with
  | nil => exact ⟨[], by simp⟩
  | cons name rest ih =>
      obtain ⟨extra, h⟩ := ih (addName start name)
      by_cases present : start.contains name = true
      · rw [addName, if_pos present] at h
        exact ⟨extra, by rw [List.foldl_cons, addName, if_pos present, h]⟩
      · rw [addName, if_neg present, List.append_assoc] at h
        exact ⟨[name] ++ extra, by rw [List.foldl_cons, addName, if_neg present, h]⟩

/-- The names that are added stand behind those that were there. -/
theorem foldl_addName_eq {names start : List String} (h : start.Nodup) :
    names.foldl addName start =
      start ++ (names.foldl addName start).filter fun c => !start.contains c := by
  obtain ⟨extra, all⟩ := prefix_foldl_addName names start
  have nodup : (start ++ extra).Nodup := all ▸ nodup_foldl_addName h
  have apart := (List.nodup_append.mp nodup).2.2
  have old : start.filter (fun c => !start.contains c) = [] := by
    refine List.filter_eq_nil_iff.mpr ?_
    intro c hc
    simp [hc]
  have new : extra.filter (fun c => !start.contains c) = extra := by
    refine List.filter_eq_self.mpr ?_
    intro c hc
    have absent : c ∉ start := fun hs => apart c hs c hc rfl
    simp [absent]
  rw [all, List.filter_append, old, new, List.nil_append]

theorem stripColumns_eq_filter (strip : List String) (row : Row) :
    stripColumns strip row = row.filter fun entry => !strip.contains entry.1 := by
  induction strip generalizing row with
  | nil => simp [stripColumns]
  | cons column rest ih =>
      have step : stripColumns (column :: rest) row = stripColumns rest (row.erase column) := rfl
      rw [step, ih, Dict.erase, List.filter_filter]
      refine List.filter_congr ?_
      intro entry _
      by_cases h : entry.1 = column <;> simp [h]

theorem projectRow_of_nodup {columns : List String} (h : columns.Nodup) (row : Row) :
    projectRow columns row = columns.map fun c => (c, Json.field row c) := by
  refine Dict.ofList_of_nodup ?_
  simpa [Dict.keys, Function.comp_def] using h

theorem page_map {α β : Type} (offset limit : Option Nat) (rows : List α) (f : α → β) :
    page offset limit (rows.map f) = (page offset limit rows).map f := by
  cases limit <;> simp [page]

theorem page_nil {α : Type} (offset limit : Option Nat) : page offset limit ([] : List α) = [] := by
  cases limit <;> simp [page]

theorem mem_of_mem_page {α : Type} {offset limit : Option Nat} {rows : List α} {row : α}
    (h : row ∈ page offset limit rows) : row ∈ rows := by
  cases limit with
  | none => exact List.mem_of_mem_drop h
  | some n => exact List.mem_of_mem_drop (List.mem_of_mem_take h)

end EntityGraph
