import Mathlib.Data.List.Nodup
import EntityGraph.Json.Basic

/-!
Laws of dictionaries: what writing, erasing and appending do to the keys and to the value found
under a key. A list of entries whose keys are distinct is a dictionary as it stands.
-/

namespace EntityGraph
namespace Dict

universe u
variable {α : Type u}

theorem contains_iff_mem_keys (d : Dict α) (key : String) :
    contains d key = true ↔ key ∈ keys d := by
  induction d with
  | nil => simp [contains, get?, keys]
  | cons e rest ih =>
      obtain ⟨k, v⟩ := e
      by_cases h : k = key
      · simp [contains, get?, keys, h]
      · simpa [contains, get?, keys, h, Ne.symm h] using ih

theorem get?_eq_none_iff (d : Dict α) (key : String) : get? d key = none ↔ key ∉ keys d := by
  rw [← contains_iff_mem_keys, contains]
  cases get? d key <;> simp

theorem mem_of_get? {d : Dict α} {key : String} {v : α} (h : get? d key = some v) :
    (key, v) ∈ d := by
  induction d with
  | nil => simp [get?] at h
  | cons e rest ih =>
      obtain ⟨k, w⟩ := e
      by_cases hk : k = key
      · simp only [get?, hk, ite_true, Option.some.injEq] at h
        simp [hk, h]
      · simp only [get?, hk, ite_false] at h
        exact List.mem_cons_of_mem _ (ih h)

theorem get?_of_mem {d : Dict α} (distinct : (keys d).Nodup) {key : String} {v : α}
    (h : (key, v) ∈ d) : get? d key = some v := by
  induction d with
  | nil => simp at h
  | cons e rest ih =>
      obtain ⟨k, w⟩ := e
      obtain ⟨new, distinct⟩ := List.nodup_cons.mp distinct
      cases h with
      | head => simp [get?]
      | tail _ h =>
          have below : key ∈ rest.map (·.1) := List.mem_map_of_mem h
          have other : k ≠ key := fun same => new (same ▸ below)
          simpa [get?, other] using ih distinct h

theorem get?_append (d more : Dict α) (key : String) :
    get? (d ++ more) key = (get? d key).or (get? more key) := by
  induction d with
  | nil => simp [get?]
  | cons e rest ih =>
      obtain ⟨k, v⟩ := e
      by_cases h : k = key <;> simp [get?, h, ih]

theorem insert_of_not_mem {d : Dict α} {key : String} (h : key ∉ keys d) (v : α) :
    insert d key v = d ++ [(key, v)] := by
  induction d with
  | nil => rfl
  | cons e rest ih =>
      obtain ⟨k, w⟩ := e
      simp only [keys, List.map_cons, List.mem_cons, not_or] at h
      simp [insert, Ne.symm h.1, ih h.2]

theorem keys_insert (d : Dict α) (key : String) (v : α) :
    keys (insert d key v) = if key ∈ keys d then keys d else keys d ++ [key] := by
  by_cases h : key ∈ keys d
  · rw [if_pos h]
    exact keys_insert_of_contains d key v ((contains_iff_mem_keys d key).mpr h)
  · rw [if_neg h, insert_of_not_mem h]
    simp [keys]

/-- Of two values written under one key the later is left. -/
theorem insert_insert (d : Dict α) (key : String) (v w : α) :
    insert (insert d key v) key w = insert d key w := by
  induction d with
  | nil => simp [insert]
  | cons e rest ih =>
      obtain ⟨k, _⟩ := e
      by_cases h : k = key <;> simp [insert, h, ih]

/-- Writing what is there changes nothing. -/
theorem insert_of_get? {d : Dict α} {key : String} {v : α} (h : get? d key = some v) :
    insert d key v = d := by
  induction d with
  | nil => cases h
  | cons e rest ih =>
      obtain ⟨k, w⟩ := e
      rw [get?] at h
      by_cases same : k = key
      · rw [if_pos same] at h
        rw [insert, if_pos same, Option.some.inj h]
      · rw [if_neg same] at h
        rw [insert, if_neg same, ih h]

/-- A name that is put behind others unless it is among them comes first of those that are new. -/
theorem append_new_names (names rest : List String) (name : String) :
    (if name ∈ names then names else names ++ [name]) ++
        (rest.removeAll (if name ∈ names then names else names ++ [name])).eraseDups =
      names ++ ((name :: rest).removeAll names).eraseDups := by
  by_cases present : name ∈ names
  · simp [present, List.removeAll]
  · have others : rest.removeAll (names ++ [name]) =
        (rest.removeAll names).filter fun other => !other == name := by
      rw [List.removeAll, List.removeAll, List.filter_filter]
      refine List.filter_congr ?_
      intro other _
      by_cases same : other = name <;> simp [same]
    have first : (name :: rest).removeAll names = name :: rest.removeAll names := by
      simp [List.removeAll, present]
    rw [if_neg present, others, first, List.eraseDups_cons, List.append_assoc,
      List.singleton_append]

theorem nodup_keys_insert {d : Dict α} (hd : (keys d).Nodup) (key : String) (v : α) :
    (keys (insert d key v)).Nodup := by
  rw [keys_insert]
  by_cases h : key ∈ keys d
  · simpa [h] using hd
  · rw [if_neg h]
    refine List.nodup_append.mpr ⟨hd, by simp, ?_⟩
    intro a ha b hb hab
    rw [List.mem_singleton] at hb
    exact h (hb ▸ hab ▸ ha)

theorem mem_insert {d : Dict α} {key : String} {v : α} {e : String × α}
    (h : e ∈ insert d key v) : e = (key, v) ∨ e ∈ d := by
  induction d with
  | nil => simpa [insert] using h
  | cons f rest ih =>
      obtain ⟨k, w⟩ := f
      by_cases hk : k = key
      · simp only [insert, hk, ite_true, List.mem_cons] at h
        cases h with
        | inl h => exact .inl h
        | inr h => exact .inr (List.mem_cons_of_mem _ h)
      · simp only [insert, hk, ite_false, List.mem_cons] at h
        cases h with
        | inl h => exact .inr (by simp [h])
        | inr h => exact (ih h).imp id (List.mem_cons_of_mem _)

theorem insertAll_of_nodup (d more : Dict α) (h : (keys (d ++ more)).Nodup) :
    insertAll d more = d ++ more := by
  induction more generalizing d with
  | nil => simp [insertAll]
  | cons e rest ih =>
      obtain ⟨k, v⟩ := e
      have hk : k ∉ keys d := by
        intro hk
        simp only [keys, List.map_append, List.map_cons] at h hk
        exact (List.nodup_append.mp h).2.2 k hk k (by simp) rfl
      have step : insertAll d ((k, v) :: rest) = insertAll (insert d k v) rest := rfl
      rw [step, insert_of_not_mem hk, ih _ (by simpa using h)]
      simp

theorem ofList_of_nodup {entries : List (String × α)} (h : (keys entries).Nodup) :
    ofList entries = entries :=
  insertAll_of_nodup [] entries h

/-- New keys come behind the others, each where it is written first. -/
theorem keys_insertAll (d more : Dict α) :
    keys (insertAll d more) = keys d ++ ((keys more).removeAll (keys d)).eraseDups := by
  induction more generalizing d with
  | nil => simp [insertAll, keys, List.removeAll]
  | cons e rest ih =>
      obtain ⟨k, v⟩ := e
      have step : insertAll d ((k, v) :: rest) = insertAll (insert d k v) rest := rfl
      rw [step, ih, keys_insert, append_new_names]
      rfl

theorem keys_ofList (entries : List (String × α)) :
    keys (ofList entries) = (keys entries).eraseDups := by
  rw [ofList, keys_insertAll]
  simp [keys, List.removeAll]

theorem get?_erase (d : Dict α) (key other : String) :
    get? (erase d key) other = if other = key then none else get? d other := by
  induction d with
  | nil => simp [erase, get?]
  | cons e rest ih =>
      obtain ⟨k, v⟩ := e
      simp only [erase] at ih
      by_cases hk : k = key
      · subst hk
        by_cases ho : other = k
        · simpa [erase, ho] using ih
        · simpa [erase, get?, ho, Ne.symm ho] using ih
      · by_cases ho : k = other
        · subst ho
          simp [erase, get?, hk]
        · simpa [erase, get?, hk, ho] using ih

theorem get?_insertAll (d more : Dict α) (key : String) :
    get? (insertAll d more) key = (get? more.reverse key).or (get? d key) := by
  induction more generalizing d with
  | nil => simp [insertAll, get?]
  | cons e rest ih =>
      obtain ⟨k, v⟩ := e
      have step : insertAll d ((k, v) :: rest) = insertAll (insert d k v) rest := rfl
      rw [step, ih, get?_insert, List.reverse_cons, get?_append, Option.or_assoc]
      by_cases h : k = key <;> simp [get?, h]

theorem get?_reverse {d : Dict α} (distinct : (keys d).Nodup) (key : String) :
    get? d.reverse key = get? d key := by
  have last := get?_insertAll [] d key
  rw [← ofList, ofList_of_nodup distinct] at last
  rw [last]
  exact Option.or_none.symm

theorem get?_ofList_append (entries more : List (String × α)) (key : String) :
    get? (ofList (entries ++ more)) key =
      (get? (ofList more) key).or (get? (ofList entries) key) := by
  simp only [ofList, get?_insertAll, List.reverse_append, get?_append]
  simp [get?]

/-- Of entries that are made item by item, the last item with the key has the say. -/
theorem get?_ofList_flatMap {β : Type} (items : List β) (f : β → List (String × α)) (key : String) :
    get? (ofList (items.flatMap f)) key =
      (items.filterMap fun x => get? (ofList (f x)) key).getLast? := by
  induction items with
  | nil => rfl
  | cons x rest ih =>
      rw [List.flatMap_cons, get?_ofList_append, ih, List.filterMap_cons]
      cases get? (ofList (f x)) key with
      | none => exact Option.or_none
      | some v =>
          rw [List.getLast?_cons]
          cases (rest.filterMap fun x => get? (ofList (f x)) key).getLast? <;> rfl

/-- Under each key stands the value of the last of the items that have it. -/
theorem get?_ofList_map {β : Type} (items : List β) (key : β → String) (value : β → α)
    (name : String) :
    get? (ofList (items.map fun x => (key x, value x))) name =
      (items.filter (key · = name)).getLast?.map value := by
  have first : ∀ items : List β, get? (items.map fun x => (key x, value x)) name =
      (items.find? (key · = name)).map value := by
    intro items
    induction items with
    | nil => rfl
    | cons x rest ih => by_cases h : key x = name <;> simp [get?, h, ih]
  rw [ofList, get?_insertAll, ← List.map_reverse, first, List.getLast?_eq_head?_reverse,
    ← List.filter_reverse, List.head?_filter]
  simp [get?]

theorem mem_keys_insertAll {d more : Dict α} {key : String} :
    key ∈ keys (insertAll d more) ↔ key ∈ keys more ∨ key ∈ keys d := by
  have isSome : ∀ d : Dict α, key ∈ keys d ↔ (get? d key).isSome = true :=
    fun d => (contains_iff_mem_keys d key).symm
  have reversed : key ∈ keys more ↔ key ∈ keys more.reverse := by simp [keys]
  rw [isSome, get?_insertAll, reversed, isSome, isSome, Option.isSome_or, Bool.or_eq_true]

theorem get?_insertAll_of_not_mem (d : Dict α) {more : Dict α} {key : String}
    (h : key ∉ keys more) : get? (insertAll d more) key = get? d key := by
  have absent : get? more.reverse key = none := by
    rw [get?_eq_none_iff]
    simpa [keys] using h
  rw [get?_insertAll, absent, Option.none_or]

theorem get?_map (columns : List String) (value : String → α) {c : String}
    (h : c ∈ columns) : get? (columns.map fun c => (c, value c)) c = some (value c) := by
  induction columns with
  | nil => simp at h
  | cons a rest ih =>
      by_cases ha : a = c
      · simp [get?, ha]
      · have hc : c ∈ rest := by simpa [Ne.symm ha] using h
        simpa [get?, ha] using ih hc

/-- Of a dictionary at most one entry is kept where only one key is. -/
theorem length_filterMap_le_one {β : Type} {d : Dict α} (distinct : (keys d).Nodup)
    {f : String × α → Option β} (key? : Option String)
    (only : ∀ entry ∈ d, (f entry).isSome = true → key? = some entry.1) :
    (d.filterMap f).length ≤ 1 := by
  induction d with
  | nil => exact Nat.zero_le 1
  | cons first rest ih =>
      obtain ⟨new, distinct⟩ := List.nodup_cons.mp distinct
      cases kept : f first with
      | none =>
          rw [List.filterMap_cons_none kept]
          exact ih distinct fun entry h => only entry (List.mem_cons_of_mem _ h)
      | some v =>
          have nothing : rest.filterMap f = [] := by
            rw [List.filterMap_eq_nil_iff]
            intro other hother
            by_contra kept_too
            have here := only first List.mem_cons_self (by rw [kept]; rfl)
            have there := only other (List.mem_cons_of_mem _ hother)
              (Option.isSome_iff_ne_none.mpr kept_too)
            rw [here, Option.some.injEq] at there
            have again : first.1 ∈ rest.map (·.1) := by
              rw [there]
              exact List.mem_map_of_mem hother
            exact new again
          rw [List.filterMap_cons_some kept, nothing]
          exact Nat.le_refl 1

end Dict

namespace Json

theorem field_insert (row : Row) (key other : String) (v : Json) :
    field (Dict.insert row key v) other = if key = other then v else field row other := by
  simp only [field, Dict.get?_insert]
  by_cases h : key = other <;> simp [h]

theorem field_erase (row : Row) (key other : String) :
    field (Dict.erase row key) other = if other = key then .null else field row other := by
  simp only [field, Dict.get?_erase]
  by_cases h : other = key <;> simp [h]

/-- A row made of named values yields the value of each name. -/
theorem field_map (columns : List String) (value : String → Json) {c : String}
    (h : c ∈ columns) : field (columns.map fun c => (c, value c)) c = value c := by
  rw [field, Dict.get?_map columns value h, Option.getD_some]

theorem field_map_append (columns : List String) (value : String → Json) (more : Row)
    {c : String} (h : c ∈ columns) :
    field ((columns.map fun c => (c, value c)) ++ more) c = value c := by
  rw [field, Dict.get?_append, Dict.get?_map columns value h, Option.some_or, Option.getD_some]

theorem field_ofList_map (columns : List String) (value : String → Json) {c : String}
    (h : c ∈ columns) : field (Dict.ofList (columns.map fun c => (c, value c))) c = value c := by
  rw [field, Dict.ofList, Dict.get?_insertAll, ← List.map_reverse,
    Dict.get?_map _ _ (List.mem_reverse.mpr h), Option.some_or, Option.getD_some]

end Json
end EntityGraph
