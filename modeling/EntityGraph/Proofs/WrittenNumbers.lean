import EntityGraph.Json.Reader
import EntityGraph.Json.Text
import EntityGraph.Proofs.ShortestDigits

/-!
A number that is written reads back as itself, from any text that goes on with something else than
a number. Every written number has a part before the point, and may have one behind it and an
exponent; a double has at least one of the two, by which it is told from an integer.
-/

namespace EntityGraph

/-- A number as the reader makes it: an integer of 64 bits with or without a sign, or a finite
double. -/
def Number.Proper : Number → Prop
  | .int n => -(2 ^ 63) ≤ n ∧ n < 2 ^ 64
  | .double d => d.Finite

namespace Json

theorem digitsValue_eq (cs : List Char) : digitsValue cs = Nat.ofDigitChars 10 cs 0 := by
  simp [digitsValue, Nat.ofDigitChars_eq_foldl, Nat.mul_comm]

theorem digitsValue_append (cs ds : List Char) :
    digitsValue (cs ++ ds) = 10 ^ ds.length * digitsValue cs + digitsValue ds := by
  rw [digitsValue_eq, digitsValue_eq, digitsValue_eq, Nat.ofDigitChars_append,
    Nat.ofDigitChars_eq_ofDigitChars_zero]

theorem digitsValue_zeros (n : Nat) : digitsValue (List.replicate n '0') = 0 := by
  rw [digitsValue_eq, Nat.ofDigitChars_replicate_zero, Nat.mul_zero]

theorem digitsValue_toString (n : Nat) : digitsValue (toString n).toList = n := by
  rw [digitsValue_eq, Nat.toString_eq_repr, Nat.toList_repr, Nat.ofDigitChars_ten_toDigits]

theorem toList_toString_int (n : Int) :
    (toString n).toList = (if n < 0 then ['-'] else []) ++ (toString n.natAbs).toList := by
  cases n with
  | ofNat n => rfl
  | negSucc n => simp [Int.toString_eq_repr, Int.repr]

/-- What the reader takes for digits. -/
def Digits (ds : List Char) : Prop := ∀ c ∈ ds, isDigit c = true

theorem Digits.append {ds es : List Char} (h : Digits ds) (h' : Digits es) : Digits (ds ++ es) :=
  List.forall_mem_append.mpr ⟨h, h'⟩

theorem digits_zeros (n : Nat) : Digits (List.replicate n '0') := by
  intro c hc
  rw [List.eq_of_mem_replicate hc]
  rfl

theorem digits_toString (n : Nat) : Digits (toString n).toList := by
  intro c hc
  rw [Nat.toString_eq_repr, Nat.toList_repr] at hc
  exact Nat.isDigit_of_mem_toDigits (by decide) (by decide) hc

theorem eq_zero_of_head?_toString {n : Nat} (h : (toString n).toList.head? = some '0') : n = 0 := by
  rw [Nat.toString_eq_repr, Nat.toList_repr] at h
  induction n using Nat.strongRecOn with
  | _ n ih =>
      rw [Nat.toDigits_eq_if (by decide)] at h
      split at h
      · simpa using h
      · rw [List.head?_append_of_ne_nil _ Nat.toDigits_ne_nil] at h
        have := ih (n / 10) (by omega) h
        omega

theorem toString_ne_nil (n : Nat) : (toString n).toList ≠ [] := by
  rw [Nat.toString_eq_repr, Nat.toList_repr]
  exact Nat.toDigits_ne_nil

/-- Digits of which the first is not zero. -/
structure Significant (ds : List Char) : Prop where
  digits : Digits ds
  present : ds ≠ []
  first : ds.head? ≠ some '0'

/-- A text that does not go on with what is asked for. -/
def Stops (p : Char → Bool) (rest : List Char) : Prop := ∀ c ∈ rest.head?, p c = false

theorem span_digits {ds rest : List Char} (digits : Digits ds) (stops : Stops isDigit rest) :
    (ds ++ rest).takeWhile isDigit = ds ∧ (ds ++ rest).dropWhile isDigit = rest := by
  rw [List.takeWhile_append_of_pos digits, List.dropWhile_append_of_pos digits]
  cases rest with
  | nil => exact ⟨List.append_nil ds, rfl⟩
  | cons c rest =>
      have stop := stops c rfl
      exact ⟨by rw [List.takeWhile_cons_of_neg (by simp [stop]), List.append_nil],
        List.dropWhile_cons_of_neg (by simp [stop])⟩

/-- The parts of a written number. -/
structure NumberParts where
  negative : Bool
  whole : List Char
  fraction : List Char
  exponent : Option Int

namespace NumberParts

def fractionText (p : NumberParts) : List Char :=
  if p.fraction = [] then [] else '.' :: p.fraction

def exponentText (p : NumberParts) : List Char :=
  match p.exponent with
  | none => []
  | some n => 'e' :: (if n < 0 then '-' else '+') :: (toString n.natAbs).toList

def text (p : NumberParts) : List Char :=
  (if p.negative then ['-'] else []) ++ p.whole ++ p.fractionText ++ p.exponentText

/-- The part before the point begins with a zero only where it is zero. -/
structure WellFormed (p : NumberParts) : Prop where
  whole : Digits p.whole
  present : p.whole ≠ []
  leading : p.whole.head? = some '0' → p.whole.length ≤ 1
  fraction : Digits p.fraction

def number? (p : NumberParts) : Option Number :=
  numberOf? p.negative p.whole p.fraction p.exponent

end NumberParts

/-- Characters that a number may go on with. -/
def extendsNumber (c : Char) : Bool := isDigit c || c = '.' || c = 'e' || c = 'E'

theorem Stops.mono {p q : Char → Bool} {rest : List Char} (h : Stops q rest)
    (imp : ∀ c, p c = true → q c = true) : Stops p rest :=
  fun c hc => Bool.eq_false_iff.mpr fun holds => Bool.eq_false_iff.mp (h c hc) (imp c holds)

theorem stops_cons {p : Char → Bool} {c : Char} {rest : List Char} (h : p c = false) :
    Stops p (c :: rest) := by
  rintro _ ⟨⟩
  exact h

namespace NumberParts

theorem readFraction?_text {p : NumberParts} (digits : Digits p.fraction) {rest : List Char}
    (stops : Stops (fun c => isDigit c || c = '.') rest) :
    readFraction? (p.fractionText ++ rest) = some (p.fraction, rest) := by
  unfold fractionText
  split
  · rename_i none
    rw [none, List.nil_append, readFraction?.eq_def]
    split
    · rename_i tail
      simpa using stops '.' rfl
    · rfl
  · rename_i present
    obtain ⟨taken, left⟩ := span_digits digits (stops.mono fun c h => by simp [h])
    rw [List.cons_append, readFraction?]
    simp only [taken, left, List.isEmpty_iff, present, if_false]

theorem readExponent?_text (p : NumberParts) {rest : List Char}
    (stops : Stops extendsNumber rest) :
    readExponent? (p.exponentText ++ rest) = some (p.exponent, rest) := by
  unfold exponentText
  split
  · rename_i none
    rw [none, List.nil_append]
    cases rest with
    | nil => rfl
    | cons c rest =>
        have stop := stops c rfl
        simp only [extendsNumber, Bool.or_eq_false_iff, decide_eq_false_iff_not] at stop
        have other : ¬ (c = 'e' ∨ c = 'E') := not_or.mpr ⟨stop.1.2, stop.2⟩
        unfold readExponent?
        exact if_neg other
  · rename_i n some
    obtain ⟨taken, left⟩ := span_digits (digits_toString n.natAbs)
      (stops.mono fun c h => by simp [extendsNumber, h])
    have present : (toString n.natAbs).toList.isEmpty = false := by simp
    rw [some, List.cons_append, List.cons_append]
    by_cases negative : n < 0
    · simp only [if_pos negative, readExponent?, true_or, if_true, taken, left, present,
        digitsValue_toString, Bool.false_eq_true, if_false, Int.ofNat_natAbs_of_nonpos negative.le,
        Int.neg_neg]
    · simp only [if_neg negative, readExponent?, true_or, if_true, taken, left, present,
        digitsValue_toString, Bool.false_eq_true, if_false,
        Int.natAbs_of_nonneg (Int.not_lt.mp negative)]

theorem stops_exponentText (p : NumberParts) {rest : List Char}
    (stops : Stops extendsNumber rest) :
    Stops (fun c => isDigit c || c = '.') (p.exponentText ++ rest) := by
  unfold exponentText
  split
  · exact stops.mono fun c h => by simp [extendsNumber, h]
  · exact stops_cons rfl

theorem stops_fractionText (p : NumberParts) {rest : List Char}
    (stops : Stops (fun c => isDigit c || c = '.') rest) :
    Stops isDigit (p.fractionText ++ rest) := by
  unfold fractionText
  split
  · exact stops.mono fun c h => by simp [h]
  · exact stops_cons rfl

theorem readNumber?_text {p : NumberParts} (wellFormed : p.WellFormed) {n : Number}
    (number : p.number? = some n) {rest : List Char} (stops : Stops extendsNumber rest) :
    readNumber? (p.text ++ rest) = some (n, rest) := by
  have stopsExponent := stops_exponentText p stops
  obtain ⟨taken, left⟩ := span_digits wellFormed.whole (stops_fractionText p stopsExponent)
  have fraction := readFraction?_text wellFormed.fraction stopsExponent
  have exponent := p.readExponent?_text stops
  have whole : p.whole.isEmpty = false := by simpa using wellFormed.present
  have leading : ¬ (p.whole.head? = some '0' ∧ 1 < p.whole.length) :=
    fun h => Nat.not_lt.mpr (wellFormed.leading h.1) h.2
  have text : p.text ++ rest = (if p.negative then ['-'] else []) ++
      (p.whole ++ (p.fractionText ++ (p.exponentText ++ rest))) := by
    simp [NumberParts.text]
  have read : numberOf? p.negative p.whole p.fraction p.exponent = some n := number
  cases negative : p.negative with
  | true =>
      rw [negative] at text read
      rw [text]
      simp [readNumber?, taken, left, whole, leading, fraction, exponent, read]
  | false =>
      rw [negative] at text read
      rw [text, if_neg Bool.false_ne_true, List.nil_append]
      have unsigned : ∀ cs,
          p.whole ++ (p.fractionText ++ (p.exponentText ++ rest)) ≠ '-' :: cs := by
        intro cs same
        cases hwhole : p.whole with
        | nil => exact wellFormed.present hwhole
        | cons c _ =>
            rw [hwhole] at same
            have digit := wellFormed.whole c (hwhole ▸ List.mem_cons_self)
            cases (List.cons.inj same).1
            cases digit
      simp [readNumber?, taken, left, whole, leading, fraction, exponent, read]

/-- The parts of an integer. -/
def ofInt (n : Int) : NumberParts := ⟨decide (n < 0), (toString n.natAbs).toList, [], none⟩

theorem wellFormed_ofInt (n : Int) : (ofInt n).WellFormed where
  whole := digits_toString n.natAbs
  present := toString_ne_nil n.natAbs
  leading := by
    intro zero
    have := eq_zero_of_head?_toString zero
    simp [ofInt, this]
  fraction := nofun

theorem text_ofInt (n : Int) : (ofInt n).text = (toString n).toList := by
  rw [toList_toString_int]
  simp [text, ofInt, fractionText, exponentText]

theorem number?_ofInt {n : Int} (h : (Number.int n).Proper) :
    (ofInt n).number? = some (.int n) := by
  obtain ⟨least, most⟩ := h
  simp only [number?, numberOf?, ofInt, digitsValue_toString, List.isEmpty_nil, Option.isNone_none,
    Bool.and_self, if_true, decide_eq_true_eq, Nat.pow_eq]
  split
  · rw [if_neg (by omega), if_pos (by omega), Int.ofNat_natAbs_of_nonpos (by omega),
      Int.neg_neg]
  · rw [if_pos (by omega), Int.natAbs_of_nonneg (by omega)]

/-- The number that the parts stand for, without the sign. -/
def value (p : NumberParts) : ℚ :=
  digitsValue (p.whole ++ p.fraction) * 10 ^ (p.exponent.getD 0 - p.fraction.length)

/-- The ways in which the digits of a double are laid out, the first of them at the place `lead`
counted from the point: all behind the point, all before it, with the point among them, or with an
exponent. -/
inductive Laid (negative : Bool) (ds : List Char) (lead : Int) : NumberParts → Prop
  | behind (k : Nat) : lead = -(k + 1) →
      Laid negative ds lead ⟨negative, ['0'], List.replicate k '0' ++ ds, none⟩
  | before (k : Nat) : lead + 1 = ds.length + k →
      Laid negative ds lead ⟨negative, ds ++ List.replicate k '0', ['0'], none⟩
  | around (k : Nat) : lead + 1 = k → 0 < k → k < ds.length →
      Laid negative ds lead ⟨negative, ds.take k, ds.drop k, none⟩
  | leading : Laid negative ds lead ⟨negative, ds.take 1, ds.drop 1, some lead⟩

section Laid

variable {negative : Bool} {ds : List Char} {lead : Int} {p : NumberParts}

theorem Laid.wellFormed (h : Laid negative ds lead p) (significant : Significant ds) :
    p.WellFormed := by
  obtain ⟨digits, present, first⟩ := significant
  have parts (k : Nat) : Digits (ds.take k) ∧ Digits (ds.drop k) :=
    ⟨fun c hc => digits c (List.mem_of_mem_take hc), fun c hc => digits c (List.mem_of_mem_drop hc)⟩
  have start {k : Nat} (more : 0 < k) : ds.take k ≠ [] ∧ (ds.take k).head? ≠ some '0' := by
    rw [List.head?_take, if_neg more.ne']
    exact ⟨by simp [more.ne', present], first⟩
  cases h with
  | behind k _ =>
      exact ⟨digits_zeros 1, List.cons_ne_nil _ _, fun _ => Nat.le_refl 1,
        (digits_zeros k).append digits⟩
  | before k _ =>
      refine ⟨digits.append (digits_zeros k), by simp [present], fun zero => absurd zero ?_,
        digits_zeros 1⟩
      rwa [List.head?_append_of_ne_nil _ present]
  | around k _ more _ =>
      exact ⟨(parts k).1, (start more).1, fun zero => absurd zero (start more).2, (parts k).2⟩
  | leading =>
      exact ⟨(parts 1).1, (start Nat.one_pos).1, fun zero => absurd zero (start Nat.one_pos).2,
        (parts 1).2⟩

theorem Laid.negative_eq (h : Laid negative ds lead p) : p.negative = negative := by
  cases h <;> rfl

/-- A double is told from an integer by its text. -/
theorem Laid.marked (h : Laid negative ds lead p) (present : ds ≠ []) :
    p.fraction ≠ [] ∨ p.exponent ≠ none := by
  cases h with
  | behind k _ => exact .inl (by simp [present])
  | before k _ => exact .inl (List.cons_ne_nil _ _)
  | around k _ _ less => exact .inl (by simp [less])
  | leading => exact .inr (Option.some_ne_none lead)

theorem Laid.value_eq (h : Laid negative ds lead p) (present : ds ≠ []) :
    p.value = digitsValue ds * 10 ^ (lead - ds.length + 1) := by
  have ten : (10 : ℚ) ≠ 0 := by norm_num
  cases h with
  | behind k place =>
      have zeros : digitsValue (['0'] ++ (List.replicate k '0' ++ ds)) = digitsValue ds := by
        rw [← List.append_assoc, digitsValue_append]
        change _ * digitsValue (List.replicate (k + 1) '0') + _ = _
        rw [digitsValue_zeros, Nat.mul_zero, Nat.zero_add]
      rw [value, zeros, place, List.length_append, List.length_replicate]
      congr 2
      dsimp only [Option.getD]
      omega
  | before k place =>
      have zeros : digitsValue (ds ++ List.replicate k '0' ++ ['0']) =
          10 ^ (k + 1) * digitsValue ds := by
        rw [List.append_assoc, digitsValue_append, List.length_append, List.length_replicate]
        change _ + digitsValue (List.replicate k '0' ++ List.replicate 1 '0') = _
        rw [← List.replicate_add, digitsValue_zeros]
        rfl
      have exponent : lead - ds.length + 1 = (k + 1 : Nat) - 1 := by omega
      rw [exponent, zpow_sub₀ ten, zpow_natCast, value, zeros]
      simp only [Option.getD, List.length_singleton, Nat.cast_mul, Nat.cast_pow, Nat.cast_ofNat,
        Nat.cast_one, zero_sub, zpow_neg, zpow_one]
      ring
  | around k place _ less =>
      rw [value, List.take_append_drop, List.length_drop]
      congr 2
      dsimp only [Option.getD]
      omega
  | leading =>
      have := List.length_pos_iff.mpr present
      rw [value, List.take_append_drop, List.length_drop]
      congr 2
      dsimp only [Option.getD]
      omega

end Laid

/-- Parts with the value of the digits that were found for a double are read as the double. -/
theorem number?_double {p : NumberParts} {d : Double} (finite : d.Finite)
    (nonzero : d.magnitude ≠ 0) (sign : p.negative = d.negative)
    (marked : p.fraction ≠ [] ∨ p.exponent ≠ none)
    (value : p.value = (Double.shortest d.magnitude).digits *
      10 ^ (Double.shortest d.magnitude).exponent) :
    p.number? = some (.double d) := by
  have double : ¬ (p.fraction.isEmpty && p.exponent.isNone) = true := by
    rw [Bool.and_eq_true, List.isEmpty_iff, Option.isNone_iff_eq_none]
    exact not_and_or.mpr marked
  obtain ⟨digits, mem⟩ := Double.shortest_mem (Nat.pos_of_ne_zero nonzero) finite.bits
  have present : digitsValue (p.whole ++ p.fraction) ≠ 0 := by
    intro zero
    rw [NumberParts.value, zero, Nat.cast_zero, zero_mul] at value
    have power : (10 : ℚ) ^ (Double.shortest d.magnitude).exponent ≠ 0 :=
      zpow_ne_zero _ (by norm_num)
    exact mul_ne_zero (Nat.cast_ne_zero.mpr digits) power value.symm
  have quarters := Double.Decimal.quarters_congr (d := Double.shortest d.magnitude)
    (c := ⟨digitsValue (p.whole ++ p.fraction), p.exponent.getD 0 - p.fraction.length⟩) value
  rw [← quarters] at mem
  have read := Double.ofDecimal?_of_mem finite (Nat.pos_of_ne_zero nonzero) present mem
  rw [number?, numberOf?, if_neg double, sign]
  exact congrArg (Option.map Number.double) read

end NumberParts
end Json

namespace DoubleFormat

theorem eq_append_of_trimZeros {digits ds : List Char} {zeros : Nat}
    (trimmed : trimZeros digits = (ds, zeros)) : digits = ds ++ List.replicate zeros '0' := by
  obtain ⟨rfl, rfl⟩ := Prod.mk.inj trimmed
  have split := List.takeWhile_append_dropWhile (p := (· == '0')) (l := digits.reverse)
  have dropped : digits.reverse.takeWhile (· == '0') =
      List.replicate (digits.reverse.takeWhile (· == '0')).length '0' :=
    List.eq_replicate_iff.mpr ⟨rfl, fun c hc =>
      beq_iff_eq.mp (List.all_eq_true.mp List.all_takeWhile c hc)⟩
  have count : digits.length - (digits.reverse.dropWhile (· == '0')).reverse.length =
      (digits.reverse.takeWhile (· == '0')).length := by
    have := congrArg List.length split
    rw [List.length_append, List.length_reverse] at this
    rw [List.length_reverse]
    omega
  rw [count, ← List.reverse_replicate, ← dropped, ← List.reverse_append, split,
    List.reverse_reverse]

theorem toList_write {f : DoubleFormat} (signed : f.positiveSign = "+") {d : Double}
    (nonzero : d.magnitude ≠ 0) {ds : List Char} (present : ds ≠ []) {zeros : Nat}
    (trimmed : trimZeros (toString (Double.shortest d.magnitude).digits).toList = (ds, zeros)) :
    ∃ p, Json.NumberParts.Laid d.negative ds
        ((Double.shortest d.magnitude).exponent + zeros + ds.length - 1) p ∧
      (f.write d).toList = p.text := by
  have sign : (if d.negative then "-" else "").toList = if d.negative then ['-'] else [] := by
    cases d.negative <;> rfl
  simp only [write, if_neg nonzero, trimmed, String.toList_append, sign]
  generalize (Double.shortest d.magnitude).exponent + zeros + ds.length - 1 = lead
  by_cases within : f.least ≤ lead ∧ lead ≤ f.most
  · by_cases small : lead < 0
    · refine ⟨_, .behind (-lead - 1).toNat (by omega), ?_⟩
      simp [Json.NumberParts.text, Json.NumberParts.fractionText, Json.NumberParts.exponentText,
        if_pos within, if_pos small, present]
    · simp only [if_pos within, if_neg small]
      by_cases all : ds.length ≤ (lead + 1).toNat
      · refine ⟨_, .before ((lead + 1).toNat - ds.length) (by omega), ?_⟩
        have length : (ds ++ List.replicate ((lead + 1).toNat - ds.length) '0').length =
            (lead + 1).toNat := by
          rw [List.length_append, List.length_replicate]
          omega
        rw [List.take_of_length_le length.le, List.drop_of_length_le length.le]
        simp [Json.NumberParts.text, Json.NumberParts.fractionText, Json.NumberParts.exponentText]
      · refine ⟨_, .around (lead + 1).toNat (by omega) (by omega) (by omega), ?_⟩
        have none : (lead + 1).toNat - ds.length = 0 := by omega
        have more : ds.drop (lead + 1).toNat ≠ [] := by simpa using all
        rw [none, List.replicate_zero, List.append_nil]
        generalize ds.drop (lead + 1).toNat = fraction at more ⊢
        simp [Json.NumberParts.text, Json.NumberParts.fractionText, Json.NumberParts.exponentText,
          more]
  · refine ⟨_, .leading, ?_⟩
    simp only [if_neg within, String.toList_append, String.toList_ofList, signed,
      Json.toList_toString_int, Json.NumberParts.text, Json.NumberParts.fractionText,
      Json.NumberParts.exponentText]
    generalize ds.take 1 = whole
    generalize ds.drop 1 = fraction
    cases fraction <;> by_cases small : lead < 0 <;> simp [small]

/-- Of a positive number something is left when the zeros at the end are taken off. -/
theorem trimZeros_toString {n : Nat} (nonzero : n ≠ 0) {ds : List Char} {zeros : Nat}
    (trimmed : trimZeros (toString n).toList = (ds, zeros)) :
    Json.Significant ds ∧ n = 10 ^ zeros * Json.digitsValue ds := by
  have split := eq_append_of_trimZeros trimmed
  have value : n = 10 ^ zeros * Json.digitsValue ds := by
    have := Json.digitsValue_toString n
    rwa [split, Json.digitsValue_append, Json.digitsValue_zeros, List.length_replicate,
      Nat.add_zero, eq_comm] at this
  have present : ds ≠ [] := by
    rintro rfl
    exact nonzero value
  refine ⟨⟨fun c hc => ?_, present, fun zero => ?_⟩, value⟩
  · exact Json.digits_toString n c (split ▸ List.mem_append_left _ hc)
  · rw [← List.head?_append_of_ne_nil ds present, ← split] at zero
    exact nonzero (Json.eq_zero_of_head?_toString zero)

end DoubleFormat

namespace Number

theorem exists_parts_of_double {d : Double} (finite : d.Finite) : ∃ p : Json.NumberParts,
    p.WellFormed ∧ (doubleFormat.write d).toList = p.text ∧ p.number? = some (.double d) := by
  by_cases zero : d.magnitude = 0
  · refine ⟨⟨d.negative, ['0'], ['0'], none⟩, ⟨Json.digits_zeros 1, List.cons_ne_nil _ _,
      fun _ => Nat.le_refl 1, Json.digits_zeros 1⟩, ?_, ?_⟩
    · cases negative : d.negative <;>
        simp [DoubleFormat.write, zero, negative, Json.NumberParts.text,
          Json.NumberParts.fractionText, Json.NumberParts.exponentText]
    · obtain ⟨negative, _⟩ := d
      cases zero
      cases negative <;> rfl
  · generalize trimmed : DoubleFormat.trimZeros
      (toString (Double.shortest d.magnitude).digits).toList = parts
    obtain ⟨ds, zeros⟩ := parts
    have digits := (Double.shortest_mem (Nat.pos_of_ne_zero zero) finite.bits).1
    obtain ⟨significant, value⟩ := DoubleFormat.trimZeros_toString digits trimmed
    obtain ⟨p, laid, written⟩ := DoubleFormat.toList_write (f := doubleFormat) rfl zero
      significant.present trimmed
    refine ⟨p, laid.wellFormed significant, written, Json.NumberParts.number?_double finite zero
      laid.negative_eq (laid.marked significant.present) ?_⟩
    rw [laid.value_eq significant.present, value]
    generalize (Double.shortest d.magnitude).exponent = exponent
    have place : exponent + zeros + ds.length - 1 - ds.length + 1 = zeros + exponent := by omega
    rw [place, zpow_add₀ (by norm_num), zpow_natCast]
    push_cast
    ring

theorem exists_parts {n : Number} (proper : n.Proper) : ∃ p : Json.NumberParts,
    p.WellFormed ∧ n.text.toList = p.text ∧ p.number? = some n := by
  cases n with
  | int n =>
      exact ⟨.ofInt n, Json.NumberParts.wellFormed_ofInt n, (Json.NumberParts.text_ofInt n).symm,
        Json.NumberParts.number?_ofInt proper⟩
  | double d => exact exists_parts_of_double proper

/-- Every number reads back as itself, also an integral double and the zero with a sign. -/
theorem readNumber?_text {n : Number} (proper : n.Proper) {rest : List Char}
    (stops : Json.Stops Json.extendsNumber rest) :
    Json.readNumber? (n.text.toList ++ rest) = some (n, rest) := by
  obtain ⟨p, wellFormed, written, number⟩ := exists_parts proper
  rw [written]
  exact Json.NumberParts.readNumber?_text wellFormed number stops

theorem text_eq_cons {n : Number} (proper : n.Proper) : ∃ c cs, n.text.toList = c :: cs ∧
    (c = '-' ∨ Json.isDigit c = true) := by
  obtain ⟨p, wellFormed, written, -⟩ := exists_parts proper
  rw [written, Json.NumberParts.text]
  cases p.negative with
  | true => exact ⟨_, _, rfl, .inl rfl⟩
  | false =>
      cases whole : p.whole with
      | nil => exact absurd whole wellFormed.present
      | cons c cs => exact ⟨_, _, rfl, .inr (wellFormed.whole c (whole ▸ List.mem_cons_self))⟩

theorem proper_of_numberOf? {negative : Bool} {whole fraction : List Char} {exponent : Option Int}
    {n : Number} (h : Json.numberOf? negative whole fraction exponent = some n) : n.Proper := by
  have double {n : Number} {digits : Nat} {power : Int}
      (h : (Double.ofDecimal? negative digits power).map .double = some n) : n.Proper := by
    obtain ⟨d, read, rfl⟩ := Option.map_eq_some_iff.mp h
    exact Double.finite_of_ofDecimal? read
  simp only [Json.numberOf?, Nat.pow_eq] at h
  split_ifs at h with integral minus zero least most
  · exact double h
  · cases h
    rw [Proper]
    omega
  · exact double h
  · cases h
    rw [Proper]
    omega
  · exact double h
  · exact double h

theorem proper_of_readNumber? {cs rest : List Char} {n : Number}
    (h : Json.readNumber? cs = some (n, rest)) : n.Proper := by
  simp only [Json.readNumber?, Option.bind_eq_bind, Option.pure_def, Option.bind_none,
    Option.ite_none_left_eq_some] at h
  obtain ⟨_, _, h⟩ := h
  obtain ⟨fraction, _, h⟩ := Option.bind_eq_some_iff.mp h
  obtain ⟨exponent, _, h⟩ := Option.bind_eq_some_iff.mp h
  obtain ⟨read, number, h⟩ := Option.bind_eq_some_iff.mp h
  cases h
  exact proper_of_numberOf? number

end Number

end EntityGraph
