import Mathlib.Data.Finset.Max
import EntityGraph.Proofs.ArgumentNames

/-!
The meaning of the names of arguments, as rules. A reserved name means its argument. Any other
name means a filter if the longest of the suffixes that end it leaves a field, and nothing if it
does not, even where a shorter suffix would. Decoding follows the rules for every protocol made
from options.
-/

namespace EntityGraph

namespace Text

/-- Of two ends of a text one is an end of the other. -/
theorem EndsIn.or {s a b : String} (ha : EndsIn s a) (hb : EndsIn s b) :
    EndsIn a b ∨ EndsIn b a := by
  obtain ⟨before, split⟩ := ha
  obtain ⟨before', split'⟩ := hb
  have lists : before.toList ++ a.toList = before'.toList ++ b.toList := by
    simpa using congrArg String.toList (split.symm.trans split')
  obtain ⟨between, _, longer⟩ | ⟨between, _, longer⟩ := List.append_eq_append_iff.mp lists
  · exact .inl ⟨String.ofList between, by simp [← String.toList_inj, longer]⟩
  · exact .inr ⟨String.ofList between, by simp [← String.toList_inj, longer]⟩

/-- Ends of one text compare by their characters as they do by their bytes. -/
theorem EndsIn.length_le_iff {s a b : String} (ha : EndsIn s a) (hb : EndsIn s b) :
    a.length ≤ b.length ↔ a.utf8ByteSize ≤ b.utf8ByteSize := by
  have nothing : ∀ t : String, t.length = 0 ↔ t.utf8ByteSize = 0 := by
    intro t
    rw [String.utf8ByteSize_eq_zero_iff, String.length_eq_zero_iff]
  obtain ⟨more, rfl⟩ | ⟨more, rfl⟩ := ha.or hb
  · have := nothing more
    rw [String.length_append, String.utf8ByteSize_append]
    omega
  · rw [String.length_append, String.utf8ByteSize_append]
    omega

end Text

namespace ArgumentProtocol

/-- The enabled operator's suffix ends the key, and no enabled suffix that does is longer. -/
structure LongestEnd (p : ArgumentProtocol) (key : String) (op : FilterOp) (suffix : String) :
    Prop where
  enabled : (op, suffix) ∈ p.operators
  ends : Text.EndsIn key suffix
  longest : ∀ other ∈ p.operators, Text.EndsIn key other.2 → other.2.length ≤ suffix.length

/-- What a key means: a reserved name its argument, a name that the longest fitting suffix splits
into a field and an operator the filter, and a name without a suffix or without a field nothing.
-/
inductive Reads (p : ArgumentProtocol) (key : String) : ArgumentMeaning → Prop
  | reserved {arg : PagingArg} : (arg, key) ∈ p.paging → Reads p key (.paging arg)
  | filter {field suffix : String} {op : FilterOp} :
      key ∉ p.paging.map (·.2) → p.LongestEnd key op suffix → key = field ++ suffix →
      field ≠ "" → Reads p key (.filter field op)
  | fieldless {op : FilterOp} :
      key ∉ p.paging.map (·.2) → p.LongestEnd key op key → Reads p key .ignored
  | endless :
      key ∉ p.paging.map (·.2) → (∀ entry ∈ p.operators, ¬ Text.EndsIn key entry.2) →
      Reads p key .ignored

variable {p : ArgumentProtocol} {key field suffix : String} {op : FilterOp}

theorem exists_longestEnd {entry : FilterOp × String} (member : entry ∈ p.operators)
    (ends : Text.EndsIn key entry.2) : ∃ op suffix, p.LongestEnd key op suffix := by
  let fitting := (p.operators.filter fun other => Text.EndsIn key other.2).toFinset
  have fits : ∀ other, other ∈ fitting ↔ other ∈ p.operators ∧ Text.EndsIn key other.2 := by
    simp [fitting]
  obtain ⟨longest, there, most⟩ :=
    fitting.exists_max_image (·.2.length) ⟨entry, (fits entry).mpr ⟨member, ends⟩⟩
  obtain ⟨enabled, ends⟩ := (fits longest).mp there
  exact ⟨longest.1, longest.2, enabled, ends,
    fun other h fit => most other ((fits other).mpr ⟨h, fit⟩)⟩

theorem readable_iff (nonempty : field ≠ "") (enabled : (op, suffix) ∈ p.operators) :
    p.Readable field suffix ↔
      field ++ suffix ∉ p.paging.map (·.2) ∧ p.LongestEnd (field ++ suffix) op suffix := by
  have ends : Text.EndsIn (field ++ suffix) suffix := ⟨field, rfl⟩
  constructor
  · intro h
    exact ⟨h.unreserved, enabled, ends,
      fun other member fits => (fits.length_le_iff ends).mpr (h.longest other member fits)⟩
  · intro h
    obtain ⟨unreserved, longest⟩ := h
    exact ⟨nonempty, unreserved,
      fun other member fits => (fits.length_le_iff ends).mp (longest.longest other member fits)⟩

theorem WellNamed.decode_eq_filter_iff_longestEnd (h : p.WellNamed) :
    p.decode key = .filter field op ↔
      key ∉ p.paging.map (·.2) ∧
        ∃ suffix, p.LongestEnd key op suffix ∧ key = field ++ suffix ∧ field ≠ "" := by
  rw [h.decode_eq_filter_iff]
  constructor
  · intro read
    obtain ⟨suffix, enabled, rfl, readable⟩ := read
    obtain ⟨unreserved, longest⟩ := (readable_iff readable.nonempty enabled).mp readable
    exact ⟨unreserved, suffix, longest, rfl, readable.nonempty⟩
  · intro read
    obtain ⟨unreserved, suffix, longest, rfl, nonempty⟩ := read
    exact ⟨suffix, longest.enabled, rfl,
      (readable_iff nonempty longest.enabled).mpr ⟨unreserved, longest⟩⟩

theorem WellNamed.mem_names_iff (h : p.WellNamed) :
    key ∈ p.paging.map (·.2) ↔ ∃ arg, p.decode key = .paging arg := by
  simp only [h.decode_eq_paging_iff, ← h.mem_paging_iff, List.mem_map, Prod.exists,
    exists_eq_right]

/-- Every key has the meaning that it is decoded to. -/
theorem WellNamed.reads_decode (h : p.WellNamed) (key : String) : p.Reads key (p.decode key) := by
  cases read : p.decode key with
  | paging arg => exact .reserved (h.mem_paging_iff.mpr (h.decode_eq_paging_iff.mp read))
  | filter field op =>
      obtain ⟨unreserved, suffix, longest, split, nonempty⟩ :=
        h.decode_eq_filter_iff_longestEnd.mp read
      exact .filter unreserved longest split nonempty
  | ignored =>
      have unreserved : key ∉ p.paging.map (·.2) := by
        simp [h.mem_names_iff, read]
      by_cases ended : ∃ entry ∈ p.operators, Text.EndsIn key entry.2
      · obtain ⟨entry, member, ends⟩ := ended
        obtain ⟨op, suffix, longest⟩ := exists_longestEnd member ends
        obtain ⟨field, split⟩ := longest.ends
        by_cases nonempty : field = ""
        · obtain rfl : key = suffix := by simpa [nonempty] using split
          exact .fieldless unreserved longest
        · have filtered := h.decode_eq_filter_iff_longestEnd.mpr
            ⟨unreserved, suffix, longest, split, nonempty⟩
          rw [read] at filtered
          cases filtered
      · exact .endless unreserved fun entry member ends => ended ⟨entry, member, ends⟩

/-- No key has two meanings. -/
theorem WellNamed.decode_of_reads (h : p.WellNamed) {meaning : ArgumentMeaning}
    (reads : p.Reads key meaning) : p.decode key = meaning := by
  have filtered : ∀ {field op}, p.decode key = .filter field op →
      ∃ suffix, p.LongestEnd key op suffix ∧ key = field ++ suffix ∧ field ≠ "" :=
    fun read => (h.decode_eq_filter_iff_longestEnd.mp read).2
  cases reads with
  | reserved named => exact h.decode_pagingName (h.mem_paging_iff.mp named)
  | filter unreserved longest split nonempty =>
      exact h.decode_eq_filter_iff_longestEnd.mpr ⟨unreserved, _, longest, split, nonempty⟩
  | fieldless unreserved whole =>
      cases read : p.decode key with
      | paging arg => exact absurd (h.mem_names_iff.mpr ⟨arg, read⟩) unreserved
      | ignored => rfl
      | filter field op =>
          obtain ⟨suffix, longest, split, nonempty⟩ := filtered read
          have size := longest.longest _ whole.enabled whole.ends
          rw [split, String.length_append] at size
          exact absurd (String.length_eq_zero_iff.mp (by omega)) nonempty
  | endless unreserved unended =>
      cases read : p.decode key with
      | paging arg => exact absurd (h.mem_names_iff.mpr ⟨arg, read⟩) unreserved
      | ignored => rfl
      | filter field op =>
          obtain ⟨suffix, longest, _⟩ := filtered read
          exact absurd longest.ends (unended _ longest.enabled)

/-- What is enabled is named as the options say. -/
theorem named_ofOptions {o : QueryOptions} (accepted : ofOptions o = .ok p) :
    p.operators = (FilterOp.all.filterMap fun op =>
      (nameOf (o.setting op.optionKey) op.defaultSuffix).map (Prod.mk op)) ∧
    p.paging = PagingArg.all.filterMap fun arg =>
      (nameOf (o.setting arg.defaultName) arg.defaultName).map (Prod.mk arg) := by
  obtain ⟨operatorsNamed, pagingNamed⟩ := ofOptions_eq_ok_iff.mp accepted
  exact ⟨(collect_nil_eq_ok_iff.mp operatorsNamed).1, (collect_nil_eq_ok_iff.mp pagingNamed).1⟩

/-- Under the names that the options give to what they enable, each key is decoded to the one
thing that it means by the rules. The argument of a field and an operator is decoded to them
exactly when the field has a name, the argument's name is not reserved and no longer suffix ends
it. -/
theorem decode_eq_iff_reads {o : QueryOptions} (accepted : ofOptions o = .ok p) :
    p.operators = (FilterOp.all.filterMap fun op =>
      (nameOf (o.setting op.optionKey) op.defaultSuffix).map (Prod.mk op)) ∧
    p.paging = (PagingArg.all.filterMap fun arg =>
      (nameOf (o.setting arg.defaultName) arg.defaultName).map (Prod.mk arg)) ∧
    (∀ key meaning, p.decode key = meaning ↔ p.Reads key meaning) ∧
    ∀ field op suffix, (op, suffix) ∈ p.operators →
      p.encode field op = some (field ++ suffix) ∧
      (p.decode (field ++ suffix) = .filter field op ↔
        field ≠ "" ∧ field ++ suffix ∉ p.paging.map (·.2) ∧
          ∀ other ∈ p.operators, Text.EndsIn (field ++ suffix) other.2 →
            other.2.length ≤ suffix.length) := by
  have h := wellNamed_ofOptions accepted
  obtain ⟨operators, paging⟩ := named_ofOptions accepted
  refine ⟨operators, paging, fun key meaning => ⟨?_, h.decode_of_reads⟩, ?_⟩
  · rintro rfl
    exact h.reads_decode key
  · intro field op suffix enabled
    refine ⟨h.encode_eq_some_iff.mpr ⟨suffix, enabled, rfl⟩, ?_⟩
    rw [h.decode_eq_filter_iff_longestEnd]
    constructor
    · intro read
      obtain ⟨unreserved, own, longest, split, nonempty⟩ := read
      obtain rfl : suffix = own := (String.append_right_inj field).mp split
      exact ⟨nonempty, unreserved, longest.longest⟩
    · intro back
      obtain ⟨nonempty, unreserved, longest⟩ := back
      exact ⟨unreserved, suffix, ⟨enabled, ⟨field, rfl⟩, longest⟩, rfl, nonempty⟩

end ArgumentProtocol

namespace Catalog

/-- Two suffixes, of which one ends the other, and a reserved name that both end. -/
def accentedOptions : QueryOptions :=
  .operators [("in", .renamed "é"), ("eq", .renamed "né"), ("notIn", .enabled false),
    ("limit", .renamed "gagné")]

def accented : ArgumentProtocol where
  operators := [(.isIn, "é"), (.eq, "né"), (.notEq, "NotEq"), (.gt, "Gt"), (.gte, "Gte"),
    (.lt, "Lt"), (.lte, "Lte"), (.like, "Like"), (.likeNoCase, "LikeNoCase"), (.isNull, "IsNull")]
  paging := [(.orderBy, "orderBy"), (.orderByDesc, "orderByDesc"), (.limit, "gagné"),
    (.offset, "offset")]

/-- The longer suffix is taken, and where it is the whole key the shorter one is not. -/
theorem decode_accented :
    ArgumentProtocol.ofOptions accentedOptions = .ok accented ∧
    accented.decode "gagné" = .paging .limit ∧
    accented.decode "anné" = .filter "an" .eq ∧
    accented.decode "né" = .ignored ∧
    accented.decode "idNotIn" = .ignored := by
  have accepted : ArgumentProtocol.ofOptions accentedOptions = .ok accented := rfl
  have rules := (ArgumentProtocol.decode_eq_iff_reads accepted).2.2.1
  have splits : accented.LongestEnd "anné" .eq "né" := ⟨by decide, by decide, by decide⟩
  have whole : accented.LongestEnd "né" .eq "né" := ⟨by decide, by decide, by decide⟩
  exact ⟨accepted, (rules _ _).mpr (.reserved (by decide)),
    (rules _ _).mpr (.filter (by decide) splits rfl (by decide)),
    (rules _ _).mpr (.fieldless (by decide) whole),
    (rules _ _).mpr (.endless (by decide) (by decide))⟩

end Catalog
end EntityGraph
