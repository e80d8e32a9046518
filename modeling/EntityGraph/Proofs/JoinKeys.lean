import EntityGraph.Proofs.ReadValues

/-!
Values that join and values that are equal. No two values that differ have one key, as keys are
written values and written values read back. Some that are equal have keys of their own: integers
of one double, an integer too large to be joined as one and its double, and lists and objects that
are not written alike.
-/

namespace EntityGraph
namespace Double

theorem natAbs_units (d : Double) : d.units.natAbs = d.magnitude := by
  unfold units
  split <;> simp

/-- A double is an integer when it has the units of one. -/
theorem toInt?_eq_some_iff {d : Double} {i : Int} : d.toInt? = some i ↔ d.units = i * one := by
  have positive := one_pos
  have units_eq {n : Nat} (h : d.magnitude = n * one) :
      d.units = (if d.negative then -(n : Int) else n) * one := by
    unfold units
    rw [h, Int.natCast_mul]
    split
    · exact (Int.neg_mul _ _).symm
    · rfl
  unfold toInt?
  dsimp only
  constructor
  · intro h
    split at h
    · rename_i whole
      cases h
      exact units_eq (Nat.div_mul_cancel (Nat.dvd_of_mod_eq_zero whole)).symm
    · cases h
  · intro h
    have size : d.magnitude = i.natAbs * one := by
      rw [← natAbs_units, h, Int.natAbs_mul, Int.natAbs_natCast]
    have sign : (if d.negative then -(i.natAbs : Int) else i.natAbs) = i :=
      Int.eq_of_mul_eq_mul_right (Int.natCast_ne_zero.mpr positive.ne')
        ((units_eq size).symm.trans h)
    rw [size, Nat.mul_mod_left, if_pos rfl, Nat.mul_div_cancel _ positive, sign]

/-- A double that is an integer is the double of that integer. -/
theorem units_ofInt_of_units {d : Double} (finite : d.Finite) {i : Int}
    (h : d.units = i * one) : (ofInt i).units = d.units := by
  have size : i.natAbs * one = d.magnitude := by
    rw [← natAbs_units, h, Int.natAbs_mul, Int.natAbs_natCast]
  rw [units_ofInt, size, roundedMagnitude_of_dvd finite.bits, h, ← size]
  split
  · rw [Int.natCast_mul, ← Int.neg_mul, Int.ofNat_natAbs_of_nonpos (by omega), Int.neg_neg]
  · rw [Int.natCast_mul, Int.natAbs_of_nonneg (by omega)]

theorem eq_of_units_eq {d e : Double} (same : d.units = e.units) (nonzero : d.units ≠ 0) :
    d = e := by
  obtain ⟨negative, m⟩ := d
  obtain ⟨negative', m'⟩ := e
  cases negative <;> cases negative' <;> simp [units] at same nonzero ⊢ <;> omega

end Double

namespace Number

/-- The number as which a number joins: an integral double joins as the integer, if that has at
most 63 bits. -/
def joined : Number → Number
  | .int i => .int i
  | .double d =>
      match d.toInt? with
      | some i => if i.natAbs < 2 ^ 63 then .int i else .double d
      | none => .double d

theorem joined_double_of_units {d : Double} {i : Int} (h : d.units = i * Double.one)
    (small : i.natAbs < 2 ^ 63) : (Number.double d).joined = .int i := by
  rw [joined, Double.toInt?_eq_some_iff.mpr h]
  exact if_pos small

theorem joined_double (d : Double) :
    (∃ i, d.units = i * Double.one ∧ i.natAbs < 2 ^ 63 ∧ (Number.double d).joined = .int i) ∨
      (∀ i, d.units = i * Double.one → ¬ i.natAbs < 2 ^ 63) ∧
        (Number.double d).joined = .double d := by
  by_cases whole : ∃ i, d.units = i * Double.one ∧ i.natAbs < 2 ^ 63
  · obtain ⟨i, units, small⟩ := whole
    exact .inl ⟨i, units, small, joined_double_of_units units small⟩
  · refine .inr ⟨fun i units small => whole ⟨i, units, small⟩, ?_⟩
    rw [joined]
    split
    · rename_i i found
      exact if_neg fun small => whole ⟨i, Double.toInt?_eq_some_iff.mp found, small⟩
    · rfl

theorem Proper.joined {n : Number} (proper : n.Proper) : n.joined.Proper := by
  cases n with
  | int i => exact proper
  | double d =>
      obtain ⟨i, _, small, joined⟩ | ⟨_, joined⟩ := joined_double d
      · rw [joined, Proper]
        omega
      · rwa [joined]

end Number

namespace Json

def joined : Json → Json
  | .number n => .number n.joined
  | v => v

theorem Proper.joined {v : Json} (proper : v.Proper) : v.joined.Proper := by
  cases v with
  | number n =>
      rw [Proper] at proper
      rw [Json.joined, Proper]
      exact proper.joined
  | _ => exact proper

section Number

variable {n : Number} {i : Int}

theorem joinKey_of_signed (h : n.toInt64? = some i) :
    (Json.number n).joinKey = some (toString i) := by
  simp only [joinKey, h]

theorem joinKey_of_integral (unsigned : n.toInt64? = none) (h : n.toDouble.toInt? = some i)
    (small : i.natAbs < 2 ^ 63) : (Json.number n).joinKey = some (toString i) := by
  simp only [joinKey, unsigned, h]
  exact if_pos small

theorem joinKey_of_other (unsigned : n.toInt64? = none)
    (h : ∀ i, n.toDouble.toInt? = some i → ¬ i.natAbs < 2 ^ 63) :
    (Json.number n).joinKey = some n.text := by
  simp only [joinKey, unsigned]
  split
  · rename_i i whole
    exact if_neg (h i whole)
  · rfl

theorem joinKey_int (i : Int) : (Json.number (.int i)).joinKey = some (toString i) := by
  by_cases signed : i < Nat.pow 2 63
  · exact joinKey_of_signed (if_pos signed)
  · refine joinKey_of_other (if_neg signed) fun j whole small => ?_
    -- The nearest double is not below the integer by so much.
    have units := Double.toInt?_eq_some_iff.mp whole
    rw [Nat.pow_eq] at signed
    have below : j < 2 ^ 63 := by omega
    have less := Double.mul_one_lt_units_ofInt below (by omega : (2 : Int) ^ 63 ≤ i)
    exact absurd units (ne_of_gt less)

theorem joinKey_double (d : Double) :
    (Json.number (.double d)).joinKey = some (Number.double d).joined.text := by
  obtain ⟨i, units, small, joined⟩ | ⟨other, joined⟩ := Number.joined_double d
  · rw [joined]
    exact joinKey_of_integral rfl (Double.toInt?_eq_some_iff.mpr units) small
  · rw [joined]
    exact joinKey_of_other rfl fun i whole => other i (Double.toInt?_eq_some_iff.mp whole)

end Number

/-- Nothing but a string is written with an `s` at the beginning. -/
theorem text_ne_string {v : Json} (proper : v.Proper) (s : String) : v.text ≠ "s:" ++ s := by
  intro same
  obtain ⟨c, cs, written, opens⟩ := text_eq_cons proper
  rw [same, String.toList_append] at written
  cases (List.cons.inj written).1
  cases opens

/-- The key of a value is the text of the value as which it joins, nulls and strings apart. -/
inductive KeyIs : Json → Option String → Prop
  | null : KeyIs .null none
  | string (s : String) : KeyIs (.string s) (some ("s:" ++ s))
  | text {w : Json} : w.isNull = false → w.string? = none → KeyIs w (some w.text)

theorem keyIs_joinKey (v : Json) : KeyIs v.joined v.joinKey := by
  cases v with
  | null => exact .null
  | string s => exact .string s
  | bool b => exact .text rfl rfl
  | array items => exact .text rfl rfl
  | object fields => exact .text rfl rfl
  | number n =>
      have key : (Json.number n).joinKey = some (Json.number n.joined).text := by
        cases n with
        | int i => exact joinKey_int i
        | double d => exact joinKey_double d
      rw [key]
      exact .text rfl rfl

theorem KeyIs.unique {v w : Json} {key : Option String} (hv : v.Proper) (hw : w.Proper)
    (left : KeyIs v key) (right : KeyIs w key) : v = w := by
  cases left with
  | null =>
      cases right
      rfl
  | string s =>
      generalize hkey : some ("s:" ++ s) = key at right
      cases right with
      | null => cases hkey
      | string t => rw [(String.append_right_inj "s:").mp (Option.some.inj hkey)]
      | text _ _ => exact absurd (Option.some.inj hkey).symm (text_ne_string hw s)
  | text _ _ =>
      generalize hkey : some v.text = key at right
      cases right with
      | null => cases hkey
      | string t => exact absurd (Option.some.inj hkey) (text_ne_string hv t)
      | text _ _ => exact text_injective hv hw (Option.some.inj hkey)

theorem KeyIs.functional {v : Json} {key key' : Option String} (left : KeyIs v key)
    (right : KeyIs v key') : key = key' := by
  cases left <;> cases right <;> first | rfl | contradiction

/-- Values have one key when they join as one value. -/
theorem joinKey_eq_iff_joined {a b : Json} (ha : a.Proper) (hb : b.Proper) :
    a.joinKey = b.joinKey ↔ a.joined = b.joined := by
  constructor
  · intro same
    exact (keyIs_joinKey a).unique ha.joined hb.joined (same ▸ keyIs_joinKey b)
  · intro same
    exact (keyIs_joinKey a).functional (same ▸ keyIs_joinKey b)

/-- How values can be equal and yet have keys of their own. -/
inductive KeptApart : Json → Json → Prop
  /-- Two integers, where they have one double. -/
  | integers {i j : Int} : i ≠ j → KeptApart (.number (.int i)) (.number (.int j))
  /-- An integer and its double, where the double is a little off or there are more than 63 bits. -/
  | integerDouble {i : Int} {d : Double} : (i.natAbs < 2 ^ 63 → d.units ≠ i * Double.one) →
      KeptApart (.number (.int i)) (.number (.double d))
  | doubleInteger {i : Int} {d : Double} : (i.natAbs < 2 ^ 63 → d.units ≠ i * Double.one) →
      KeptApart (.number (.double d)) (.number (.int i))
  /-- Two lists, where an object of one has its entries in another order, or a zero its sign. -/
  | arrays {items items' : List Json} : items ≠ items' → KeptApart (.array items) (.array items')
  | objects {fields fields' : List (String × Json)} : fields ≠ fields' →
      KeptApart (.object fields) (.object fields')

namespace KeptApart

theorem integers_iff {i j : Int} :
    KeptApart (.number (.int i)) (.number (.int j)) ↔ i ≠ j := by
  refine ⟨fun h => ?_, .integers⟩
  cases h with
  | integers other => exact other

theorem integerDouble_iff {i : Int} {d : Double} :
    KeptApart (.number (.int i)) (.number (.double d)) ↔
      (i.natAbs < 2 ^ 63 → d.units ≠ i * Double.one) := by
  refine ⟨fun h => ?_, .integerDouble⟩
  cases h with
  | integerDouble off => exact off

theorem doubleInteger_iff {i : Int} {d : Double} :
    KeptApart (.number (.double d)) (.number (.int i)) ↔
      (i.natAbs < 2 ^ 63 → d.units ≠ i * Double.one) := by
  refine ⟨fun h => ?_, .doubleInteger⟩
  cases h with
  | doubleInteger off => exact off

theorem not_doubles {d e : Double} :
    ¬ KeptApart (.number (.double d)) (.number (.double e)) := by
  rintro ⟨⟩

theorem arrays_iff {items items' : List Json} :
    KeptApart (.array items) (.array items') ↔ items ≠ items' := by
  refine ⟨fun h => ?_, .arrays⟩
  cases h with
  | arrays other => exact other

theorem objects_iff {fields fields' : List (String × Json)} :
    KeptApart (.object fields) (.object fields') ↔ fields ≠ fields' := by
  refine ⟨fun h => ?_, .objects⟩
  cases h with
  | objects other => exact other

end KeptApart

theorem joined_integer_double_iff {i : Int} {d : Double} :
    Number.int i = (Number.double d).joined ↔ i.natAbs < 2 ^ 63 ∧ d.units = i * Double.one := by
  constructor
  · intro same
    obtain ⟨j, units, small, joined⟩ | ⟨_, joined⟩ := Number.joined_double d
    · rw [joined] at same
      cases same
      exact ⟨small, units⟩
    · rw [joined] at same
      cases same
  · rintro ⟨small, units⟩
    exact (Number.joined_double_of_units units small).symm

theorem joined_doubles_iff {d e : Double} :
    (Number.double d).joined = (Number.double e).joined ↔ d.units = e.units := by
  constructor
  · intro same
    obtain ⟨i, units, small, joined⟩ | ⟨_, joined⟩ := Number.joined_double d
    · rw [joined, joined_integer_double_iff] at same
      rw [units, same.2]
    · rw [joined] at same
      obtain ⟨j, _, _, joined'⟩ | ⟨_, joined'⟩ := Number.joined_double e
      · rw [joined'] at same
        cases same
      · rw [joined'] at same
        cases same
        rfl
  · intro same
    obtain ⟨i, units, small, joined⟩ | ⟨other, joined⟩ := Number.joined_double d
    · rw [joined]
      exact joined_integer_double_iff.mpr ⟨small, same ▸ units⟩
    · have nonzero : d.units ≠ 0 := fun zero => other 0 (by rw [zero, Int.zero_mul]) (by decide)
      rw [Double.eq_of_units_eq same nonzero]

/-- An integer joins with a double as it should where the double is the integer. -/
theorem joined_integer_iff_equal {i : Int} {d : Double} (finite : d.Finite) :
    Number.int i = (Number.double d).joined ↔
      (Double.ofInt i).units = d.units ∧ ¬ (i.natAbs < 2 ^ 63 → d.units ≠ i * Double.one) := by
  rw [joined_integer_double_iff]
  constructor
  · rintro ⟨small, units⟩
    exact ⟨Double.units_ofInt_of_units finite units, fun off => off small units⟩
  · rintro ⟨-, together⟩
    obtain ⟨small, units⟩ := Classical.not_imp.mp together
    exact ⟨small, not_not.mp units⟩

theorem joined_number_iff {m n : Number} (hm : m.Proper) (hn : n.Proper) :
    m.joined = n.joined ↔
      (Json.number m).equal (.number n) = true ∧ ¬ KeptApart (.number m) (.number n) := by
  rw [equal, Double.same, beq_iff_eq]
  cases m with
  | int i =>
      cases n with
      | int j =>
          rw [KeptApart.integers_iff, not_not]
          constructor
          · intro same
            cases same
            exact ⟨rfl, rfl⟩
          · rintro ⟨-, rfl⟩
            rfl
      | double d =>
          rw [KeptApart.integerDouble_iff]
          exact joined_integer_iff_equal hn
  | double d =>
      cases n with
      | int i =>
          rw [KeptApart.doubleInteger_iff]
          exact eq_comm.trans ((joined_integer_iff_equal hm).trans (and_congr_left' eq_comm))
      | double e => exact joined_doubles_iff.trans (iff_self_and.mpr fun _ => KeptApart.not_doubles)

mutual

/-- Objects without repeated keys are equal to themselves. -/
theorem same_self : ∀ {v : Json}, v.Proper → v.same v = true
  | .null, _ => rfl
  | .bool _, _ => by simp [same]
  | .number n, _ => by cases n <;> simp [same, Number.same, Double.same]
  | .string _, _ => by simp [same]
  | .array items, proper => sameItems_self proper
  | .object fields, proper => by
      rw [same, beq_self_eq_true, Bool.true_and]
      exact sameFields_self proper.2 fun e he => Dict.get?_of_mem proper.1 he

theorem sameItems_self : ∀ {items : List Json}, ProperItems items → sameItems items items = true
  | [], _ => rfl
  | v :: rest, proper => by
      rw [sameItems, same_self proper.1, sameItems_self proper.2, Bool.and_self]

theorem sameFields_self : ∀ {fields : List (String × Json)}, ProperFields fields →
    ∀ {all : List (String × Json)}, (∀ e ∈ fields, Dict.get? all e.1 = some e.2) →
    sameFields fields all = true
  | [], _, _, _ => rfl
  | (k, v) :: rest, proper, all, stored => by
      rw [sameFields, stored (k, v) List.mem_cons_self,
        sameFields_self proper.2 fun e he => stored e (List.mem_cons_of_mem _ he)]
      simp [same_self proper.1]

end

/-- Values join as one value when they are equal and not kept apart. -/
theorem joined_eq_iff {a b : Json} (ha : a.Proper) (hb : b.Proper) :
    a.joined = b.joined ↔ a.equal b = true ∧ ¬ KeptApart a b := by
  cases a with
  | null =>
      have together : ¬ KeptApart .null b := by rintro ⟨⟩
      cases b <;> simp [joined, equal, same, together]
  | bool c =>
      have together : ¬ KeptApart (.bool c) b := by rintro ⟨⟩
      cases b <;> simp [joined, equal, same, together]
  | string s =>
      have together : ¬ KeptApart (.string s) b := by rintro ⟨⟩
      cases b <;> simp [joined, equal, same, together]
  | number m =>
      cases b with
      | number n =>
          rw [joined, joined, number.injEq]
          exact joined_number_iff ha hb
      | _ => simp [joined, equal, same]
  | array items =>
      cases b with
      | array items' =>
          rw [KeptApart.arrays_iff, not_not]
          constructor
          · intro same
            cases same
            exact ⟨same_self ha, rfl⟩
          · rintro ⟨-, rfl⟩
            rfl
      | _ => simp [joined, equal, same]
  | object fields =>
      cases b with
      | object fields' =>
          rw [KeptApart.objects_iff, not_not]
          constructor
          · intro same
            cases same
            exact ⟨same_self ha, rfl⟩
          · rintro ⟨-, rfl⟩
            rfl
      | _ => simp [joined, equal, same]

/-- Values have one key when they are equal and not kept apart: a key is never shared by values
that differ. -/
theorem joinKey_eq_iff {a b : Json} (ha : a.Proper) (hb : b.Proper) :
    a.joinKey = b.joinKey ↔ a.equal b = true ∧ ¬ KeptApart a b := by
  rw [joinKey_eq_iff_joined ha hb]
  exact joined_eq_iff ha hb

/-- The values that are read from texts are all proper, so of them nothing is asked. -/
theorem joinKey_eq_iff_of_read? {s t : String} {a b : Json} (ha : read? s = some a)
    (hb : read? t = some b) : a.joinKey = b.joinKey ↔ a.equal b = true ∧ ¬ KeptApart a b := by
  have proper := proper_of_read? ha
  have proper' := proper_of_read? hb
  rw [joinKey_eq_iff_joined proper proper']
  exact joined_eq_iff proper proper'

theorem equal_of_joinKey_eq {a b : Json} (ha : a.Proper) (hb : b.Proper)
    (same : a.joinKey = b.joinKey) : a.equal b = true :=
  ((joined_eq_iff ha hb).mp ((joinKey_eq_iff_joined ha hb).mp same)).1

end Json

namespace Catalog
open Json

/-- An integer joins with the double that is the integer. -/
theorem joinKey_three : read? "3" = some (.number (.int 3)) ∧
    read? "3.0" = some (.number (.double (.ofInt 3))) ∧
    Proper (.number (.int 3)) ∧ Proper (.number (.double (.ofInt 3))) ∧
    joinKey (.number (.int 3)) = joinKey (.number (.double (.ofInt 3))) := by
  have three : read? "3" = some (.number (.int 3)) :=
    read?_of_readNumber? rfl (.inr rfl) (by decide +kernel)
  have threePointZero : read? "3.0" = some (.number (.double (.ofInt 3))) :=
    read?_of_readNumber? rfl (.inr rfl) (by decide +kernel)
  have integer := proper_of_read? three
  have double := proper_of_read? threePointZero
  refine ⟨three, threePointZero, integer, double, (joinKey_eq_iff integer double).mpr ⟨?_, ?_⟩⟩
  · simp [equal, Number.toDouble, Double.same]
  · rintro (_ | off)
    exact off (by decide) (Double.units_ofInt_of_natAbs_le (by decide))

def wide : Json := .number (.int (2 ^ 63))

def wideDouble : Json := .number (.double (.ofInt (2 ^ 63)))

/-- An integer of 64 bits is equal to its double and does not join with it. -/
theorem equal_without_one_key : wide.Proper ∧ wideDouble.Proper ∧
    wide.equal wideDouble = true ∧ wide.joinKey = some "9223372036854775808" ∧
    wideDouble.joinKey = some "9.223372036854776e+18" ∧
    ¬ (wide.joinKey = wideDouble.joinKey ↔ wide.equal wideDouble = true) := by
  have equal : wide.equal wideDouble = true := by decide +kernel
  have key : wide.joinKey = some "9223372036854775808" := by decide +kernel
  have keyDouble : wideDouble.joinKey = some "9.223372036854776e+18" := by decide +kernel
  refine ⟨?_, ?_, equal, key, keyDouble, fun agree => ?_⟩
  · rw [wide, Proper, Number.Proper]
    omega
  · rw [wideDouble, Proper, Number.Proper]
    exact ⟨by decide +kernel, by decide +kernel⟩
  · have same := agree.mpr equal
    rw [key, keyDouble] at same
    exact absurd same (by decide)

end Catalog
end EntityGraph
