import Mathlib.Data.List.Nodup
import EntityGraph.Blueprint
import EntityGraph.Proofs.Registry

/-!
When the argument names of a relation field mean what they are offered for. A name is read back by
the longest suffix that ends it, so a field and a suffix are recovered from their name unless the
name is a reserved one or a longer suffix ends it too. Names that are read back are different.
-/

namespace EntityGraph

namespace Text

def EndsIn (s suffix : String) : Prop := ∃ rest, s = rest ++ suffix

theorem stripEnd?_eq_some_iff {s suffix rest : String} :
    stripEnd? s suffix = some rest ↔ s = rest ++ suffix := by
  dsimp only [stripEnd?]
  constructor
  · intro h
    split at h
    · rename_i fits
      obtain ⟨before, split⟩ := List.isSuffixOf_iff_suffix.mp fits
      rw [← split] at h
      have same : String.ofList before = rest := by simpa using h
      rw [← same, ← String.toList_inj, String.toList_append, String.toList_ofList, split]
    · cases h
  · intro h
    simp [h]

instance (s suffix : String) : Decidable (EndsIn s suffix) :=
  decidable_of_iff ((stripEnd? s suffix).isSome = true) <| by
    simp only [Option.isSome_iff_exists, stripEnd?_eq_some_iff, EndsIn]

private theorem eq_of_longer {b d : String}
    (size : b.utf8ByteSize = d.utf8ByteSize) {between : List Char}
    (longer : d.toList = between ++ b.toList) : b = d := by
  have split : d = String.ofList between ++ b := by
    rw [← String.toList_inj, String.toList_append, String.toList_ofList, longer]
  rw [split, String.utf8ByteSize_append] at size
  have nothing : String.ofList between = "" := String.utf8ByteSize_eq_zero_iff.mp (by omega)
  rw [split, nothing, String.empty_append]

/-- A text ends in one text of each size. -/
theorem EndsIn.eq_of_size {s a b : String} (ha : EndsIn s a) (hb : EndsIn s b)
    (size : a.utf8ByteSize = b.utf8ByteSize) : a = b := by
  obtain ⟨before, split⟩ := ha
  obtain ⟨before', split'⟩ := hb
  have lists : before.toList ++ a.toList = before'.toList ++ b.toList := by
    simpa using congrArg String.toList (split.symm.trans split')
  obtain ⟨_, _, longer⟩ | ⟨_, _, longer⟩ := List.append_eq_append_iff.mp lists
  · exact (eq_of_longer size.symm longer).symm
  · exact eq_of_longer size longer

end Text

namespace ArgumentProtocol

section Collect

variable {α : Type} {name : α → Option String}

/-- The items that are enabled are named in order, each by a name of its own that is not empty. -/
theorem collect_eq_ok_iff {done named : List (α × String)} {items : List α}
    (distinct : (done.map (·.2)).Nodup) :
    collect name done items = .ok named ↔
      named = done ++ items.filterMap (fun x => (name x).map (Prod.mk x)) ∧
        (named.map (·.2)).Nodup ∧ "" ∉ items.filterMap name := by
  induction items generalizing done with
  | nil =>
      have same : collect name done [] = .ok named ↔ named = done := by simp [collect, eq_comm]
      rw [same, List.filterMap_nil, List.append_nil, List.filterMap_nil]
      exact ⟨fun h => ⟨h, h ▸ distinct, nofun⟩, fun h => h.1⟩
  | cons x rest ih =>
      rw [collect]
      cases enabled : name x with
      | none => simpa [enabled] using ih distinct
      | some s =>
          dsimp only
          by_cases taken : s = "" ∨ s ∈ done.map (·.2)
          · have refused : (s.isEmpty || done.any (·.2 = s)) = true := by simpa using taken
            rw [if_pos refused]
            refine ⟨nofun, ?_⟩
            rintro ⟨rfl, apart, named⟩
            obtain rfl | again := taken
            · simp [enabled] at named
            · rw [List.map_append, List.nodup_append] at apart
              exact absurd rfl (apart.2.2 s again s (by simp [enabled]))
          · have fresh : ¬ (s.isEmpty || done.any (·.2 = s)) = true := by simpa using taken
            obtain ⟨nonempty, new⟩ := not_or.mp taken
            have next : ((done ++ [(x, s)]).map (·.2)).Nodup := by
              rw [List.map_append, List.nodup_append]
              refine ⟨distinct, by simp, ?_⟩
              intro a ha b hb same
              obtain rfl : b = s := List.mem_singleton.mp hb
              exact new (same ▸ ha)
            rw [if_neg fresh, ih next]
            simp [enabled, Ne.symm nonempty]

theorem collect_nil_eq_ok_iff {named : List (α × String)} {items : List α} :
    collect name [] items = .ok named ↔
      named = items.filterMap (fun x => (name x).map (Prod.mk x)) ∧
        (named.map (·.2)).Nodup ∧ "" ∉ items.filterMap name :=
  collect_eq_ok_iff .nil

theorem lookup_filterMap [BEq α] [LawfulBEq α] (items : List α) (x : α) :
    (items.filterMap fun y => (name y).map (Prod.mk y)).lookup x =
      if items.contains x then name x else none := by
  induction items with
  | nil => rfl
  | cons y rest ih =>
      by_cases same : x = y
      · subst same
        cases enabled : name x with
        | none => simp [enabled, ih]
        | some s => simp [enabled, List.lookup_cons_self]
      · have other : (x == y) = false := by simpa using same
        cases enabled : name y with
        | none => simp [enabled, ih, same]
        | some s => simp [enabled, List.lookup_cons, other, ih]

/-- What was named is what can be looked up. -/
theorem filterMap_eq_lookup [BEq α] [LawfulBEq α] {items : List α} {named : List (α × String)}
    (h : named = items.filterMap fun x => (name x).map (Prod.mk x)) :
    named = items.filterMap fun x => (named.lookup x).map (Prod.mk x) := by
  have found : ∀ x ∈ items, named.lookup x = name x := by
    intro x hx
    rw [h, lookup_filterMap, if_pos (List.contains_iff_mem.mpr hx)]
  refine h.trans (List.filterMap_congr ?_)
  intro x hx
  rw [found x hx]

theorem mem_filterMap_name {items : List α} {x : α} (hx : x ∈ items) {s : String} :
    (x, s) ∈ items.filterMap (fun y => (name y).map (Prod.mk y)) ↔ name x = some s := by
  simp only [List.mem_filterMap, Option.map_eq_some_iff, Prod.mk.injEq]
  constructor
  · intro found
    obtain ⟨_, _, _, found, rfl, rfl⟩ := found
    exact found
  · intro found
    exact ⟨x, hx, s, found, rfl, rfl⟩

end Collect

/-- What a protocol offers is what is enabled, in order, and each name is that of one item. -/
structure WellNamed (p : ArgumentProtocol) : Prop where
  operators : p.operators = FilterOp.all.filterMap fun op => (p.suffix? op).map (Prod.mk op)
  suffixes : (p.operators.map (·.2)).Nodup
  paging : p.paging = PagingArg.all.filterMap fun arg => (p.pagingName? arg).map (Prod.mk arg)
  names : (p.paging.map (·.2)).Nodup

theorem ofOptions_eq_ok_iff {o : QueryOptions} {p : ArgumentProtocol} :
    ofOptions o = .ok p ↔
      collect (fun (op : FilterOp) => nameOf (o.setting op.optionKey) op.defaultSuffix) []
          FilterOp.all = .ok p.operators ∧
        collect (fun (arg : PagingArg) => nameOf (o.setting arg.defaultName) arg.defaultName) []
          PagingArg.all = .ok p.paging := by
  simp only [ofOptions, Except.bind_eq_ok]
  constructor
  · rintro ⟨operators, operatorsNamed, paging, pagingNamed, made⟩
    cases made
    exact ⟨operatorsNamed, pagingNamed⟩
  · rintro ⟨operatorsNamed, pagingNamed⟩
    exact ⟨_, operatorsNamed, _, pagingNamed, rfl⟩

theorem wellNamed_ofOptions {o : QueryOptions} {p : ArgumentProtocol}
    (h : ofOptions o = .ok p) : p.WellNamed := by
  obtain ⟨operatorsNamed, pagingNamed⟩ := ofOptions_eq_ok_iff.mp h
  obtain ⟨offered, suffixes, _⟩ := collect_nil_eq_ok_iff.mp operatorsNamed
  obtain ⟨reserved, names, _⟩ := collect_nil_eq_ok_iff.mp pagingNamed
  exact ⟨filterMap_eq_lookup offered, suffixes, filterMap_eq_lookup reserved, names⟩

/-- The first suffix that fits, where long ones come first, is the longest one that fits. -/
private theorem find?_endsIn_iff {key : String} {operators : List (FilterOp × String)}
    (sorted : operators.Pairwise fun a b => b.2.utf8ByteSize ≤ a.2.utf8ByteSize)
    (distinct : (operators.map (·.2)).Nodup) {entry : FilterOp × String} :
    operators.find? (fun e => Text.EndsIn key e.2) = some entry ↔
      entry ∈ operators ∧ Text.EndsIn key entry.2 ∧
        ∀ other ∈ operators, Text.EndsIn key other.2 →
          other.2.utf8ByteSize ≤ entry.2.utf8ByteSize := by
  have longest : ∀ {first}, operators.find? (fun e => Text.EndsIn key e.2) = some first →
      first ∈ operators ∧ Text.EndsIn key first.2 ∧
        ∀ other ∈ operators, Text.EndsIn key other.2 →
          other.2.utf8ByteSize ≤ first.2.utf8ByteSize := by
    intro first found
    obtain ⟨fits, before, after, split, misses⟩ := List.find?_eq_some_iff_append.mp found
    refine ⟨by simp [split], by simpa using fits, ?_⟩
    intro other hother ends
    rw [split] at hother sorted
    cases List.mem_append.mp hother with
    | inl hother => simpa [ends] using misses other hother
    | inr hother =>
        cases hother with
        | head => exact Nat.le_refl _
        | tail _ hother =>
            exact (List.pairwise_cons.mp (List.pairwise_append.mp sorted).2.1).1 other hother
  refine ⟨longest, ?_⟩
  intro h
  obtain ⟨member, ends, most⟩ := h
  have some_fits : (operators.find? fun e => Text.EndsIn key e.2).isSome = true := by
    rw [List.find?_isSome]
    exact ⟨entry, member, by simpa using ends⟩
  obtain ⟨first, found⟩ := Option.isSome_iff_exists.mp some_fits
  obtain ⟨member', ends', most'⟩ := longest found
  have size := Nat.le_antisymm (most' entry member ends) (most first member' ends')
  have same := List.inj_on_of_nodup_map distinct member member' (ends.eq_of_size ends' size)
  rw [found, same]

theorem decodeSuffix_eq (key : String) (operators : List (FilterOp × String)) :
    decodeSuffix key operators =
      match operators.find? fun e => Text.EndsIn key e.2 with
      | none => .ignored
      | some (op, suffix) =>
          match Text.stripEnd? key suffix with
          | none => .ignored
          | some field => if field.isEmpty then .ignored else .filter field op := by
  induction operators with
  | nil => rfl
  | cons first rest ih =>
      obtain ⟨op, suffix⟩ := first
      rw [decodeSuffix]
      cases fits : Text.stripEnd? key suffix with
      | none =>
          have misses : ¬ Text.EndsIn key suffix := by
            intro ends
            obtain ⟨before, split⟩ := ends
            rw [Text.stripEnd?_eq_some_iff.mpr split] at fits
            cases fits
          simp [misses, ih]
      | some field =>
          have ends : Text.EndsIn key suffix := ⟨field, Text.stripEnd?_eq_some_iff.mp fits⟩
          simp [ends, fits]

theorem decodeSuffix_eq_filter_iff {key field : String} {op : FilterOp}
    {operators : List (FilterOp × String)}
    (sorted : operators.Pairwise fun a b => b.2.utf8ByteSize ≤ a.2.utf8ByteSize)
    (distinct : (operators.map (·.2)).Nodup) :
    decodeSuffix key operators = .filter field op ↔
      ∃ suffix, (op, suffix) ∈ operators ∧ key = field ++ suffix ∧ field ≠ "" ∧
        ∀ other ∈ operators, Text.EndsIn key other.2 →
          other.2.utf8ByteSize ≤ suffix.utf8ByteSize := by
  rw [decodeSuffix_eq]
  constructor
  · intro h
    split at h
    · cases h
    · rename_i own suffix found
      obtain ⟨member, _, longest⟩ := (find?_endsIn_iff sorted distinct).mp found
      split at h
      · cases h
      · rename_i before fits
        split at h
        · cases h
        · rename_i some_field
          cases h
          exact ⟨suffix, member, Text.stripEnd?_eq_some_iff.mp fits, by simpa using some_field,
            longest⟩
  · intro h
    obtain ⟨suffix, member, split, some_field, longest⟩ := h
    have found := (find?_endsIn_iff sorted distinct).mpr ⟨member, ⟨field, split⟩, longest⟩
    simp [found, Text.stripEnd?_eq_some_iff.mpr split, some_field]

variable {p : ArgumentProtocol}

theorem WellNamed.mem_paging_iff (h : p.WellNamed) {arg : PagingArg} {name : String} :
    (arg, name) ∈ p.paging ↔ p.pagingName? arg = some name := by
  have all : arg ∈ PagingArg.all := by cases arg <;> decide
  rw [h.paging]
  exact mem_filterMap_name all

/-- A reserved name is read back whatever suffixes there are. -/
theorem WellNamed.decode_pagingName (h : p.WellNamed) {arg : PagingArg} {name : String}
    (named : p.pagingName? arg = some name) : p.decode name = .paging arg := by
  have offered : (arg, name) ∈ p.paging := h.mem_paging_iff.mpr named
  have some_named : (p.paging.find? (·.2 = name)).isSome = true := by
    rw [List.find?_isSome]
    exact ⟨(arg, name), offered, by simp⟩
  obtain ⟨entry, found⟩ := Option.isSome_iff_exists.mp some_named
  have same : entry.2 = name := by simpa using List.find?_some found
  obtain rfl := List.inj_on_of_nodup_map h.names (List.mem_of_find?_eq_some found) offered same
  rw [decode, found]

theorem decodeSuffix_ne_paging (key : String) (operators : List (FilterOp × String))
    (arg : PagingArg) : decodeSuffix key operators ≠ .paging arg := by
  induction operators with
  | nil => nofun
  | cons first rest ih =>
      rw [decodeSuffix]
      split
      · split <;> nofun
      · exact ih

/-- Only its own name is read as a reserved argument. -/
theorem WellNamed.decode_eq_paging_iff (h : p.WellNamed) {key : String} {arg : PagingArg} :
    p.decode key = .paging arg ↔ p.pagingName? arg = some key := by
  refine ⟨?_, h.decode_pagingName⟩
  intro read
  rw [decode] at read
  split at read
  · rename_i own name found
    cases read
    have same : name = key := by simpa using List.find?_some found
    exact h.mem_paging_iff.mp (same ▸ List.mem_of_find?_eq_some found)
  · exact absurd read (decodeSuffix_ne_paging key _ arg)

/-- The name of the field's argument with the suffix can be read in one way only: it is not a
reserved name, it has a part before the suffix, and no longer suffix ends it. -/
structure Readable (p : ArgumentProtocol) (field suffix : String) : Prop where
  nonempty : field ≠ ""
  unreserved : field ++ suffix ∉ p.paging.map (·.2)
  longest : ∀ other ∈ p.operators, Text.EndsIn (field ++ suffix) other.2 →
    other.2.utf8ByteSize ≤ suffix.utf8ByteSize

instance (p : ArgumentProtocol) (field suffix : String) : Decidable (p.Readable field suffix) :=
  decidable_of_iff (field ≠ "" ∧ field ++ suffix ∉ p.paging.map (·.2) ∧
    ∀ other ∈ p.operators, Text.EndsIn (field ++ suffix) other.2 →
      other.2.utf8ByteSize ≤ suffix.utf8ByteSize)
    ⟨fun h => ⟨h.1, h.2.1, h.2.2⟩, fun h => ⟨h.1, h.2, h.3⟩⟩

theorem WellNamed.decode_eq_filter_iff (h : p.WellNamed) {key field : String} {op : FilterOp} :
    p.decode key = .filter field op ↔
      ∃ suffix, (op, suffix) ∈ p.operators ∧ key = field ++ suffix ∧ p.Readable field suffix := by
  have perm : p.byLength.Perm p.operators := List.mergeSort_perm _ _
  have sorted : p.byLength.Pairwise fun a b => b.2.utf8ByteSize ≤ a.2.utf8ByteSize := by
    have ordered : p.byLength.Pairwise fun a b =>
        decide (b.2.utf8ByteSize ≤ a.2.utf8ByteSize) = true :=
      List.pairwise_mergeSort ?_ ?_ p.operators
    · exact ordered.imp fun h => by simpa using h
    · intro a b c
      simp only [decide_eq_true_eq]
      omega
    · intro a b
      simp only [Bool.or_eq_true, decide_eq_true_eq]
      omega
  have distinct : (p.byLength.map (·.2)).Nodup := (perm.map _).nodup_iff.mpr h.suffixes
  have reserved : p.paging.find? (·.2 = key) = none ↔ key ∉ p.paging.map (·.2) := by
    simp only [List.find?_eq_none, decide_eq_true_eq, List.mem_map, not_exists, not_and]
  rw [decode]
  constructor
  · intro read
    split at read
    · cases read
    · rename_i unreserved
      obtain ⟨suffix, member, rfl, nonempty, longest⟩ :=
        (decodeSuffix_eq_filter_iff sorted distinct).mp read
      exact ⟨suffix, perm.mem_iff.mp member, rfl, nonempty, reserved.mp unreserved,
        fun other hother => longest other (perm.mem_iff.mpr hother)⟩
  · intro named
    obtain ⟨suffix, member, rfl, nonempty, unreserved, longest⟩ := named
    rw [reserved.mpr unreserved]
    exact (decodeSuffix_eq_filter_iff sorted distinct).mpr ⟨suffix, perm.mem_iff.mpr member, rfl,
      nonempty, fun other hother => longest other (perm.mem_iff.mp hother)⟩

theorem WellNamed.encode_eq_some_iff (h : p.WellNamed) {field name : String} {op : FilterOp} :
    p.encode field op = some name ↔
      ∃ suffix, (op, suffix) ∈ p.operators ∧ name = field ++ suffix := by
  have enabled : ∀ suffix, (op, suffix) ∈ p.operators ↔ p.suffix? op = some suffix := by
    intro suffix
    have all : op ∈ FilterOp.all := by cases op <;> decide
    rw [h.operators]
    exact mem_filterMap_name all
  simp only [encode, Option.map_eq_some_iff, enabled]
  refine exists_congr fun suffix => and_congr_right fun _ => eq_comm

/-- A field's argument is read back exactly when its name has one reading. -/
theorem WellNamed.decode_encode_iff (h : p.WellNamed) {field : String} :
    (∀ op name, p.encode field op = some name → p.decode name = .filter field op) ↔
      ∀ entry ∈ p.operators, p.Readable field entry.2 := by
  constructor
  · intro back entry member
    have read := back entry.1 _ (h.encode_eq_some_iff.mpr ⟨entry.2, member, rfl⟩)
    obtain ⟨suffix, _, same, readable⟩ := h.decode_eq_filter_iff.mp read
    rwa [(String.append_right_inj field).mp same]
  · intro readable op name encoded
    obtain ⟨suffix, member, rfl⟩ := h.encode_eq_some_iff.mp encoded
    exact h.decode_eq_filter_iff.mpr ⟨suffix, member, rfl, readable _ member⟩

end ArgumentProtocol

namespace Schema

variable {p : ArgumentProtocol}

/-- The names of a relation field's arguments: those of every scalar of the target and every
enabled operator, then the enabled reserved ones. -/
theorem names_relationParameters (h : p.WellNamed) (target : Entity) :
    (relationParameters p target).map (·.name) =
      target.scalarNames.flatMap (fun field => FilterOp.all.filterMap (p.encode field)) ++
        PagingArg.all.filterMap p.pagingName? := by
  have filters : ∀ field t, (filterParameters p field t).map (·.name) =
      FilterOp.all.filterMap (p.encode field) := by
    intro field t
    rw [filterParameters, h.operators]
    simp only [List.map_filterMap, Option.map_map]
    rfl
  have paging : (pagingParameters p).map (·.name) = PagingArg.all.filterMap p.pagingName? := by
    rw [pagingParameters, h.paging]
    simp [List.map_filterMap, Function.comp_def]
  rw [relationParameters, List.map_append, paging, List.map_flatMap, Entity.scalarNames,
    List.flatMap_map]
  simp only [filters]

/-- Names that are read back are different. -/
theorem nodup_relationParameters (h : p.WellNamed) {target : Entity}
    (distinct : target.scalarNames.Nodup)
    (back : ∀ field ∈ target.scalarNames, ∀ op name,
      p.encode field op = some name → p.decode name = .filter field op) :
    ((relationParameters p target).map (·.name)).Nodup := by
  rw [names_relationParameters h, List.nodup_append, List.nodup_flatMap]
  refine ⟨⟨?_, ?_⟩, ?_, ?_⟩
  · intro field hfield
    refine List.Nodup.filterMap ?_ (by decide)
    intro op op' name named named'
    have same := (back field hfield op name named).symm.trans (back field hfield op' name named')
    cases same
    rfl
  · refine distinct.imp_of_mem ?_
    intro field other hfield hother different name named named'
    obtain ⟨op, _, named⟩ := List.mem_filterMap.mp named
    obtain ⟨op', _, named'⟩ := List.mem_filterMap.mp named'
    have same := (back field hfield op name named).symm.trans (back other hother op' name named')
    cases same
    exact different rfl
  · refine List.Nodup.filterMap ?_ (by decide)
    intro arg arg' name named named'
    have same := (h.decode_pagingName named).symm.trans (h.decode_pagingName named')
    cases same
    rfl
  · intro name named name' named' same
    obtain ⟨field, hfield, named⟩ := List.mem_flatMap.mp named
    obtain ⟨op, _, named⟩ := List.mem_filterMap.mp named
    obtain ⟨arg, _, named'⟩ := List.mem_filterMap.mp named'
    have read := back field hfield op name named
    rw [same, h.decode_pagingName named'] at read
    cases read

end Schema

namespace Blueprint

variable {entities : List Entity} {o : Options} {b : Blueprint}

theorem ofEntities_eq_ok_iff :
    ofEntities entities o = .ok b ↔
      (∀ e ∈ entities, e.fields ≠ []) ∧
        Registry.ofList (entities.map (·.mergedWith o.extendProps)) = .ok b.registry ∧
          ArgumentProtocol.ofOptions o.queryOptions = .ok b.protocol ∧ b.options = o := by
  have declared : entities.find? (·.fields.isEmpty) = none ↔ ∀ e ∈ entities, e.fields ≠ [] := by
    simp [List.find?_eq_none]
  rw [← declared]
  dsimp only [ofEntities]
  cases entities.find? (·.fields.isEmpty) with
  | some e => exact ⟨nofun, nofun⟩
  | none =>
      simp only [Except.bind_eq_ok, true_and]
      constructor
      · rintro ⟨r, registered, p, named, made⟩
        cases made
        exact ⟨registered, named, rfl⟩
      · rintro ⟨registered, named, rfl⟩
        exact ⟨_, registered, _, named, rfl⟩

theorem ofEntities_ok (accepted : ofEntities entities o = .ok b) :
    Registry.ofList (entities.map (·.mergedWith o.extendProps)) = .ok b.registry ∧
      ArgumentProtocol.ofOptions o.queryOptions = .ok b.protocol := by
  obtain ⟨_, registered, named, _⟩ := ofEntities_eq_ok_iff.mp accepted
  exact ⟨registered, named⟩

/-- On the line of a relation field stand the names of the enabled filters of its target's scalars
and the enabled reserved names. The reserved ones always mean what they are offered for. The
others do, and all are different, exactly when each of them has one reading. -/
theorem relationLine_readable_iff (accepted : ofEntities entities o = .ok b)
    (dictionaries : ∀ e ∈ entities, (Dict.keys e.fields).Nodup) {e : Entity}
    {line : Schema.FieldLine}
    (declared : line ∈ e.apiRelations.filterMap (Schema.relationLine? b.registry b.protocol)) :
    ∃ a ∈ e.apiRelations, ∃ target, b.registry.get? a.relation.target = some target ∧
      line.arguments.map (·.name) =
        target.scalarNames.flatMap (fun field =>
          FilterOp.all.filterMap (b.protocol.encode field)) ++
          PagingArg.all.filterMap b.protocol.pagingName? ∧
      (∀ arg name, b.protocol.pagingName? arg = some name →
        b.protocol.decode name = .paging arg) ∧
      ((line.arguments.map (·.name)).Nodup ∧
          (∀ field ∈ target.scalarNames, ∀ op name, b.protocol.encode field op = some name →
            b.protocol.decode name = .filter field op) ↔
        ∀ field ∈ target.scalarNames, ∀ entry ∈ b.protocol.operators,
          b.protocol.Readable field entry.2) := by
  obtain ⟨registered, named⟩ := ofEntities_ok accepted
  have h := ArgumentProtocol.wellNamed_ofOptions named
  obtain ⟨a, ha, made⟩ := List.mem_filterMap.mp declared
  obtain ⟨target, htarget, rfl⟩ := Option.map_eq_some_iff.mp made
  have distinct : target.scalarNames.Nodup := by
    obtain ⟨member, _⟩ := Registry.mem_of_get? registered htarget
    obtain ⟨own, hown, rfl⟩ := List.mem_map.mp member
    exact Entity.nodup_scalarNames (Entity.nodup_keys_mergedWith (dictionaries own hown) _)
  have readable : (∀ field ∈ target.scalarNames, ∀ op name,
      b.protocol.encode field op = some name → b.protocol.decode name = .filter field op) ↔
      ∀ field ∈ target.scalarNames, ∀ entry ∈ b.protocol.operators,
        b.protocol.Readable field entry.2 :=
    forall₂_congr fun field _ => h.decode_encode_iff
  refine ⟨a, ha, target, htarget, Schema.names_relationParameters h target,
    fun _ _ => h.decode_pagingName, ?_⟩
  rw [← readable]
  exact and_iff_right_of_imp (Schema.nodup_relationParameters h distinct)

end Blueprint

namespace Catalog

/-- The catalogue with the usual operators and reserved names. -/
def blueprint : Blueprint := ⟨registry, .standard, {}⟩

theorem blueprint_accepted : Blueprint.ofEntities [category, course] {} = .ok blueprint := rfl

/-- The line of a course's category. -/
def categoryLine : Schema.FieldLine :=
  ⟨"category", Schema.relationParameters .standard category, .named "Category"⟩

/-- The fields of a category end in no part of a suffix. -/
theorem readable_category :
    Blueprint.ofEntities [category, course] {} = .ok blueprint ∧
    (∀ e ∈ [category, course], (Dict.keys e.fields).Nodup) ∧
    categoryLine ∈ course.apiRelations.filterMap (Schema.relationLine? registry .standard) ∧
    (categoryLine.arguments.map (·.name)).Nodup ∧
    ∀ field ∈ category.scalarNames, ∀ op name,
      ArgumentProtocol.standard.encode field op = some name →
        ArgumentProtocol.standard.decode name = .filter field op := by
  have dictionaries : ∀ e ∈ [category, course], (Dict.keys e.fields).Nodup := by decide
  have declared : categoryLine ∈
      course.apiRelations.filterMap (Schema.relationLine? registry .standard) :=
    List.mem_singleton.mpr rfl
  obtain ⟨a, ha, target, htarget, _, _, readable⟩ :=
    Blueprint.relationLine_readable_iff blueprint_accepted dictionaries declared
  obtain rfl := List.mem_singleton.mp ha
  cases htarget
  exact ⟨blueprint_accepted, dictionaries, declared, readable.mpr (by decide +kernel)⟩

/-- A rule has a field that ends in the first part of a suffix. -/
def rule : Entity where
  name := "Rule"
  table := none
  fields := [("id", .scalar ⟨"integer"⟩), ("mustNot", .scalar ⟨"string"⟩)]
  relations := []
  api := {}

def policy : Entity where
  name := "Policy"
  table := none
  fields := [("id", .scalar ⟨"integer"⟩), ("ruleId", .scalar ⟨"integer"⟩),
    ("rule", .relation none)]
  relations := [("rule", ⟨.one, "Rule", ⟨"ruleId", "id"⟩, true, none⟩)]
  api := {}

def policies : Blueprint := ⟨⟨[("Rule", rule), ("Policy", policy)]⟩, .standard, {}⟩

/-- The line of a policy's rule. -/
def ruleLine : Schema.FieldLine :=
  ⟨"rule", Schema.relationParameters .standard rule, .named "Rule"⟩

/-- What is offered as membership of one field is read as exclusion by another, which does not
exist. -/
theorem mustNotIn_read_as_exclusion :
    Blueprint.ofEntities [rule, policy] {} = .ok policies ∧
    ruleLine ∈ policy.apiRelations.filterMap
      (Schema.relationLine? policies.registry policies.protocol) ∧
    (⟨"mustNotIn", .list (.named "String")⟩ : Schema.Parameter) ∈ ruleLine.arguments ∧
    policies.protocol.encode "mustNot" .isIn = some "mustNotIn" ∧
    policies.protocol.decode "mustNotIn" = .filter "must" .notIn ∧
    rule.hasScalar "must" = false := by
  have named : policies.protocol.WellNamed :=
    ArgumentProtocol.wellNamed_ofOptions (o := .toggle true) rfl
  refine ⟨rfl, List.mem_singleton.mpr rfl, by decide +kernel, rfl, ?_, rfl⟩
  exact named.decode_eq_filter_iff.mpr ⟨"NotIn", by decide, rfl, by decide +kernel⟩

end Catalog
end EntityGraph
