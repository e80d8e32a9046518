import EntityGraph.Proofs.Scanning

/-!
Names in lower camel case. A name is split at its underscores and where letters and digits or small
and capital letters meet; the words are run together again with some letters in the other case. So
the characters are those of the name but for the underscores, and it is a name again unless a digit
or nothing at all comes first.
-/

namespace EntityGraph

namespace Text

open Scan

/-- All characters may stand in a name. -/
def Plain (cs : List Char) : Prop := ∀ c ∈ cs, isNameChar c = true

variable {cs : List Char}

theorem toLower_lowerChar {c : Char} (h : isNameChar c = true) :
    (lowerChar c).map Char.toLower = [c.toLower] := by
  refine of_isNameChar (P := fun c => (lowerChar c).map Char.toLower = [c.toLower]) ?_ h
  decide +kernel

theorem toLower_upperChar {c : Char} (h : isNameChar c = true) :
    (upperChar c).map Char.toLower = [c.toLower] := by
  refine of_isNameChar (P := fun c => (upperChar c).map Char.toLower = [c.toLower]) ?_ h
  decide +kernel

theorem ne_capitalSigma {c : Char} (h : isNameChar c = true) : c ≠ capitalSigma := by
  refine of_isNameChar (P := (· ≠ capitalSigma)) ?_ h
  decide +kernel

theorem toLower_lower (plain : Plain cs) : (lower cs).map Char.toLower = cs.map Char.toLower := by
  have from_any : ∀ before, (lowerFrom before cs).map Char.toLower = cs.map Char.toLower := by
    induction cs with
    | nil => exact fun _ => rfl
    | cons c cs ih =>
        intro before
        obtain ⟨here, others⟩ := List.forall_mem_cons.mp plain
        rw [lowerFrom, if_neg (ne_capitalSigma here), List.map_append, toLower_lowerChar here,
          ih others, List.map_cons, List.singleton_append]
  exact from_any []

/-! Each character of a name is a cluster of its own. -/

theorem clusters_of_plain (plain : Plain cs) : clusters cs = cs.map ([·]) := by
  have unmarked : ∀ c ∈ cs, inRanges markRanges c.toNat = false ∧
      inRanges leadRanges c.toNat = false := by
    intro c hc
    refine of_isNameChar (P := fun c => inRanges markRanges c.toNat = false ∧
      inRanges leadRanges c.toNat = false) ?_ (plain c hc)
    decide +kernel
  have from_any : ∀ done, clustersFrom done false cs = done.reverse ++ cs.map ([·]) := by
    induction cs with
    | nil => exact fun done => (List.append_nil _).symm
    | cons c cs ih =>
        intro done
        obtain ⟨here, others⟩ := List.forall_mem_cons.mp unmarked
        obtain ⟨_, plain⟩ := List.forall_mem_cons.mp plain
        simp only [clustersFrom, here.1, here.2, Bool.or_false, Bool.false_eq_true, if_false]
        rw [ih plain others]
        simp
  exact from_any []

/-! The words hold what is not a separator, in its order. -/

theorem flatten_wordsFrom (word : List (List Char)) (previous : Option ClusterKind)
    (cs : List (List Char)) :
    (wordsFrom word previous cs).flatten =
      word.reverse ++ cs.filter (fun c => clusterKind c ≠ .separator) := by
  induction cs generalizing word previous with
  | nil => rfl
  | cons c cs ih =>
      by_cases separator : clusterKind c = .separator
      · simp [wordsFrom, separator, ih]
      · have shown : (c :: cs).filter (fun c => clusterKind c ≠ .separator) =
            c :: cs.filter (fun c => clusterKind c ≠ .separator) :=
          List.filter_cons_of_pos (by simpa using separator)
        have either : ∀ splits : Bool,
            (if splits = true then word.reverse :: wordsFrom [c] (some (clusterKind c)) cs
              else wordsFrom (c :: word) (some (clusterKind c)) cs).flatten =
              word.reverse ++ c :: cs.filter (fun c => clusterKind c ≠ .separator) := by
          rintro (_ | _)
          · rw [if_neg Bool.false_ne_true, ih, List.reverse_cons, List.append_assoc]
            rfl
          · rw [if_pos rfl, List.flatten_cons, ih]
            rfl
        simp only [wordsFrom, if_neg separator]
        rw [shown]
        exact either _

theorem flatten_words (s : String) :
    (words s).flatten = (clusters s.toList).filter (fun c => clusterKind c ≠ .separator) := by
  rw [words, List.flatten_filter_not_isEmpty, flatten_wordsFrom]
  rfl

theorem separator_iff {c : Char} (h : isNameChar c = true) :
    clusterKind [c] ≠ .separator ↔ c ≠ '_' := by
  refine of_isNameChar (P := fun c => clusterKind [c] ≠ .separator ↔ c ≠ '_') ?_ h
  decide +kernel

/-- The name without its underscores. -/
def spoken (s : String) : List Char := s.toList.filter (· ≠ '_')

theorem flatten_words_of_plain {s : String} (plain : Plain s.toList) :
    (words s).flatten.flatten = spoken s := by
  rw [flatten_words, clusters_of_plain plain, List.filter_map, spoken]
  have same : s.toList.filter ((fun c => decide (clusterKind c ≠ .separator)) ∘ ([·])) =
      s.toList.filter (· ≠ '_') :=
    List.filter_congr fun c hc => decide_eq_decide.mpr (separator_iff (plain c hc))
  rw [same]
  exact List.flatMap_singleton' _

theorem toLower_upper (plain : Plain cs) : (upper cs).map Char.toLower = cs.map Char.toLower := by
  induction cs with
  | nil => rfl
  | cons c cs ih =>
      obtain ⟨here, others⟩ := List.forall_mem_cons.mp plain
      rw [upper, List.flatMap_cons, List.map_append, toLower_upperChar here, ← upper, ih others,
        List.map_cons, List.singleton_append]

theorem toLower_capitalized {w : List (List Char)} (plain : Plain w.flatten) :
    (capitalized w).map Char.toLower = w.flatten.map Char.toLower := by
  cases w with
  | nil => rfl
  | cons c cs =>
      obtain ⟨first, others⟩ := List.forall_mem_append.mp plain
      rw [capitalized, List.map_append, toLower_upper first, toLower_lower others,
        List.flatten_cons, List.map_append]

theorem toLower_flatMap_capitalized {ws : List (List (List Char))}
    (plain : Plain ws.flatten.flatten) :
    (ws.flatMap capitalized).map Char.toLower = ws.flatten.flatten.map Char.toLower := by
  induction ws with
  | nil => rfl
  | cons w ws ih =>
      rw [List.flatten_cons, List.flatten_append] at plain
      obtain ⟨first, others⟩ := List.forall_mem_append.mp plain
      rw [List.flatMap_cons, List.map_append, toLower_capitalized first, ih others,
        List.flatten_cons, List.flatten_append, List.map_append]

/-- In camel case a name keeps all of its characters but the underscores, whatever their case. -/
theorem toLower_camelCase {s : String} (plain : Plain s.toList) :
    (camelCase s).toList.map Char.toLower = (spoken s).map Char.toLower := by
  have kept : Plain (words s).flatten.flatten := by
    rw [flatten_words_of_plain plain]
    exact fun c hc => plain c (List.mem_of_mem_filter hc)
  rw [← flatten_words_of_plain plain, camelCase]
  cases found : words s with
  | nil => rfl
  | cons w ws =>
      rw [found, List.flatten_cons, List.flatten_append] at kept
      obtain ⟨first, others⟩ := List.forall_mem_append.mp kept
      rw [String.toList_ofList, List.map_append, toLower_lower first,
        toLower_flatMap_capitalized others, List.flatten_cons, List.flatten_append,
        List.map_append]

/-! What of a name is left in camel case. -/

theorem isName_toLower (c : Char) :
    isNameStart c.toLower = isNameStart c ∧ isNameChar c.toLower = isNameChar c := by
  by_cases small : c.toNat < 128
  · refine of_toNat_lt (P := fun c => isNameStart c.toLower = isNameStart c ∧
      isNameChar c.toLower = isNameChar c) ?_ small
    decide +kernel
  · have capital : ¬ (c.val ≥ 'A'.val ∧ c.val ≤ 'Z'.val) := by
      rintro ⟨_, le⟩
      exact small (Nat.lt_of_le_of_lt le (by decide))
    have same : c.toLower = c := dif_neg capital
    rw [same]
    exact ⟨rfl, rfl⟩

/-- A text made of the characters of names, whatever their case, is a name if it begins like one. -/
theorem isName_of_alike {t : String} (plain : Plain cs)
    (alike : t.toList.map Char.toLower = cs.map Char.toLower) :
    isName t = true ↔ ∃ c ∈ cs.head?, isNameStart c = true := by
  have all_lower : ∀ l : List Char, (l.map Char.toLower).all isNameChar = l.all isNameChar := by
    intro l
    rw [List.all_map]
    exact congrArg l.all (funext fun c => (isName_toLower c).2)
  unfold isName
  cases letters : t.toList with
  | nil =>
      rw [letters] at alike
      rw [List.map_eq_nil_iff.mp alike.symm]
      simp
  | cons d ds =>
      cases cs with
      | nil => simp [letters] at alike
      | cons c cs =>
          rw [letters, List.map_cons, List.map_cons] at alike
          obtain ⟨first, others⟩ := List.cons.inj alike
          have starts : isNameStart d = isNameStart c := by
            rw [← (isName_toLower d).1, first, (isName_toLower c).1]
          have inside : ds.all isNameChar = true := by
            rw [← all_lower, others, all_lower]
            exact List.all_eq_true.mpr (List.forall_mem_cons.mp plain).2
          simp [starts, inside]

/-- What comes first when the name is read without its underscores. -/
def lead? (s : String) : Option Char := s.toList.find? (· ≠ '_')

theorem head?_spoken (s : String) : (spoken s).head? = lead? s := List.head?_filter ..

theorem isNameStart_of_lead? {s : String} {c : Char} (h : c ∈ lead? s) :
    isNameStart c = isLetter c := by
  have other : (c ≠ '_') := by simpa using List.find?_some h
  simp [isNameStart, other]

theorem plain_of_isName {s : String} (valid : isName s = true) : Plain s.toList := by
  obtain ⟨c, cs, letters, start, inside⟩ := isName_cons valid
  rw [letters]
  exact List.forall_mem_cons.mpr ⟨isNameChar_of_isNameStart start, inside⟩

variable {s : String} (valid : isName s = true)
include valid

theorem plain_spoken : Plain (spoken s) := fun c hc =>
  plain_of_isName valid c (List.mem_of_mem_filter hc)

/-- A name in camel case is a name when a letter comes first. -/
theorem isName_camelCase : isName (camelCase s) = true ↔ ∃ c ∈ lead? s, isLetter c = true := by
  rw [isName_of_alike (plain_spoken valid) (toLower_camelCase (plain_of_isName valid)),
    head?_spoken]
  refine exists_congr fun c => and_congr_right fun first => ?_
  rw [isNameStart_of_lead? first]

/-- With a letter added at the end, it is one unless a digit comes first. -/
theorem isName_camelCase_append :
    isName (camelCase s ++ "s") = true ↔ ∀ c ∈ lead? s, isLetter c = true := by
  have alike : (camelCase s ++ "s").toList.map Char.toLower =
      (spoken s ++ ['s']).map Char.toLower := by
    rw [String.toList_append, List.map_append, toLower_camelCase (plain_of_isName valid),
      List.map_append]
    rfl
  have plain : Plain (spoken s ++ ['s']) :=
    List.forall_mem_append.mpr ⟨plain_spoken valid, List.forall_mem_singleton.mpr rfl⟩
  rw [isName_of_alike plain alike, ← head?_spoken]
  have first : ∀ c ∈ (spoken s).head?, isNameStart c = isLetter c := fun c hc =>
    isNameStart_of_lead? (head?_spoken s ▸ hc)
  cases h : spoken s with
  | nil =>
      refine ⟨fun _ _ none => ?_, fun _ => ⟨'s', rfl, by decide⟩⟩
      cases none
  | cons c cs =>
      rw [h] at first
      simp [first c rfl]

end Text
end EntityGraph
