import EntityGraph.Proofs.WrittenNumbers

/-!
A value that is written reads back as itself, if the reader goes deep enough. Two different values
are therefore never written alike, nor is one the beginning of the other within a list or an
object.
-/

namespace EntityGraph
namespace Json

theorem hexValue?_hexDigit : ∀ n < 16, hexValue? (hexDigit n) = some n := by decide

theorem readUnicode?_control {c : Char} (control : c.toNat < 32) (tail : List Char) :
    readUnicode? ('0' :: '0' :: hexDigit (c.toNat / 16) :: hexDigit (c.toNat % 16) :: tail) =
      some (c, tail) := by
  have zero : hexValue? '0' = some 0 := rfl
  have value : (0 * 16 + 0) * 16 + c.toNat / 16 = c.toNat / 16 := by omega
  have whole : c.toNat / 16 * 16 + c.toNat % 16 = c.toNat := by omega
  have low : c.toNat < 0xD800 ∨ 0xDFFF < c.toNat := by omega
  simp only [readUnicode?, readHex4?, zero, hexValue?_hexDigit _ (by omega : c.toNat / 16 < 16),
    hexValue?_hexDigit _ (by omega : c.toNat % 16 < 16), Option.bind_eq_bind, Option.bind_some,
    Option.pure_def, value, whole, if_pos low, Char.ofNat_toNat]

theorem readString?_escapeChar (fuel : Nat) (done : List Char) (c : Char) (tail : List Char) :
    readString? (fuel + 1) done (escapeChar c ++ tail) = readString? fuel (c :: done) tail := by
  have named {n : Nat} (h : c.toNat = n) : c = Char.ofNat n := by rw [← h, Char.ofNat_toNat]
  unfold escapeChar
  split_ifs with quote backslash line carriage tab backspace feed control
  · subst quote
    simp [readString?, shortEscape?]
  · subst backslash
    simp [readString?, shortEscape?]
  · subst line
    simp [readString?, shortEscape?]
  · subst carriage
    simp [readString?, shortEscape?]
  · subst tab
    simp [readString?, shortEscape?]
  · simp [readString?, shortEscape?, named backspace]
  · simp [readString?, shortEscape?, named feed]
  · simp [readString?, readUnicode?_control control]
  · simp [readString?, quote, backslash, control]

theorem readString?_escaped (s : List Char) {fuel : Nat} (enough : s.length < fuel)
    (done rest : List Char) :
    readString? fuel done (s.flatMap escapeChar ++ '"' :: rest) =
      some (String.ofList (done.reverse ++ s), rest) := by
  induction s generalizing fuel done with
  | nil =>
      obtain ⟨k, rfl⟩ := Nat.exists_eq_succ_of_ne_zero enough.ne'
      simp [readString?]
  | cons c s ih =>
      obtain ⟨k, rfl⟩ := Nat.exists_eq_succ_of_ne_zero (Nat.ne_zero_of_lt enough)
      rw [List.flatMap_cons, List.append_assoc, readString?_escapeChar,
        ih (Nat.lt_of_succ_lt_succ enough)]
      simp

mutual

/-- How far the reader goes down and on in the text of a value. -/
def size : Json → Nat
  | .array items => 1 + sizeItems items
  | .object fields => 1 + sizeFields fields
  | _ => 1

def sizeItems : List Json → Nat
  | [] => 1
  | v :: rest => 1 + size v + sizeItems rest

def sizeFields : List (String × Json) → Nat
  | [] => 1
  | (_, v) :: rest => 1 + size v + sizeFields rest

end

theorem size_pos (v : Json) : 0 < v.size := by cases v <;> simp [size]

mutual

/-- A value as the reader makes it, in the numbers that it holds and the keys of its objects. -/
def Proper : Json → Prop
  | .number n => n.Proper
  | .array items => ProperItems items
  | .object fields => (Dict.keys fields).Nodup ∧ ProperFields fields
  | _ => True

def ProperItems : List Json → Prop
  | [] => True
  | v :: rest => Proper v ∧ ProperItems rest

def ProperFields : List (String × Json) → Prop
  | [] => True
  | (_, v) :: rest => Proper v ∧ ProperFields rest

end

/-- Characters that a written value can begin with. -/
def opensValue (c : Char) : Bool := isDigit c || ['n', 't', 'f', '"', '[', '\x7b', '-'].contains c

theorem text_eq_cons {v : Json} (proper : v.Proper) :
    ∃ c cs, v.text.toList = c :: cs ∧ opensValue c = true := by
  cases v with
  | null => exact ⟨_, _, rfl, rfl⟩
  | bool b => cases b <;> exact ⟨_, _, rfl, rfl⟩
  | number n =>
      obtain ⟨c, cs, written, minus | digit⟩ := n.text_eq_cons proper
      · exact ⟨c, cs, written, minus ▸ rfl⟩
      · exact ⟨c, cs, written, by simp [opensValue, digit]⟩
  | string s =>
      exact ⟨_, _, by rw [text, quote, String.toList_append, String.toList_append]; rfl, rfl⟩
  | array items => exact ⟨_, _, by rw [text, String.toList_append, String.toList_append]; rfl, rfl⟩
  | object fields =>
      exact ⟨_, _, by rw [text, String.toList_append, String.toList_append]; rfl, rfl⟩

theorem skipBlanks_cons {c : Char} (opens : isBlank c = false) (cs : List Char) :
    skipBlanks (c :: cs) = c :: cs := List.dropWhile_cons_of_neg (by simp [opens])

theorem isBlank_of_opensValue {c : Char} (opens : opensValue c = true) : isBlank c = false := by
  refine Bool.eq_false_iff.mpr fun blank => ?_
  simp only [isBlank, Bool.or_eq_true, decide_eq_true_eq] at blank
  rcases blank with ((rfl | rfl) | rfl) | rfl <;> cases opens

theorem readValue_of_readNumber? {c : Char} (opens : c = '-' ∨ isDigit c = true)
    {cs rest : List Char} {n : Number} (read : readNumber? (c :: cs) = some (n, rest))
    (fuel depth : Nat) : readValue (fuel + 1) depth (c :: cs) = (.number n, some rest) := by
  have blank : isBlank c = false := isBlank_of_opensValue (by
    obtain rfl | digit := opens
    · rfl
    · simp [opensValue, digit])
  rw [readValue, skipBlanks_cons blank]
  split
  case h_7 => simp [read, readValue.ofOption]
  all_goals
    rename_i same
    cases (List.cons.inj same).1
    simp [isDigit] at opens

theorem readValue_number {n : Number} (proper : n.Proper) (fuel depth : Nat) {rest : List Char}
    (stops : Stops extendsNumber rest) :
    readValue (fuel + 1) depth (n.text.toList ++ rest) = (.number n, some rest) := by
  have read := n.readNumber?_text proper stops
  obtain ⟨c, cs, written, opens⟩ := n.text_eq_cons proper
  rw [written, List.cons_append] at read ⊢
  exact readValue_of_readNumber? opens read fuel depth

theorem toList_quote (s : String) (rest : List Char) :
    (quote s).toList ++ rest = '"' :: (s.toList.flatMap escapeChar ++ '"' :: rest) := by
  simp [quote]

theorem length_le_flatMap_escapeChar (s : List Char) :
    s.length ≤ (s.flatMap escapeChar).length := by
  have longer (c : Char) : 1 ≤ (escapeChar c).length := by
    unfold escapeChar
    split_ifs <;> simp
  induction s with
  | nil => exact Nat.zero_le _
  | cons c s ih =>
      have := longer c
      rw [List.flatMap_cons, List.length_append, List.length_cons]
      omega

theorem readString?_quoted (s : String) (rest : List Char) :
    readString? ((s.toList.flatMap escapeChar ++ '"' :: rest).length + 1) []
      (s.toList.flatMap escapeChar ++ '"' :: rest) = some (s, rest) := by
  rw [readString?_escaped]
  · simp
  · have := length_le_flatMap_escapeChar s.toList
    rw [List.length_append]
    omega

theorem itemsText_false (v : Json) (items : List Json) :
    (itemsText false (v :: items)).toList = ',' :: (itemsText true (v :: items)).toList := by
  simp [itemsText]

theorem itemsText_true (v : Json) (items : List Json) (rest : List Char) :
    (itemsText true (v :: items)).toList ++ rest =
      v.text.toList ++ ((itemsText false items).toList ++ rest) := by
  simp [itemsText]

theorem fieldsText_true (k : String) (v : Json) (fields : List (String × Json))
    (rest : List Char) :
    (fieldsText true ((k, v) :: fields)).toList ++ rest =
      (quote k).toList ++
        (':' :: (v.text.toList ++ ((fieldsText false fields).toList ++ rest))) := by
  simp [fieldsText]

theorem fieldsText_false (e : String × Json) (fields : List (String × Json)) :
    (fieldsText false (e :: fields)).toList = ',' :: (fieldsText true (e :: fields)).toList := by
  simp [fieldsText]

mutual

theorem readValue_text : ∀ {v : Json}, v.Proper → ∀ {fuel depth : Nat}, v.size ≤ fuel →
    v.size ≤ depth → ∀ {rest : List Char}, Stops extendsNumber rest →
    readValue fuel depth (v.text.toList ++ rest) = (.ofJson v, some rest)
  | v, _, 0, _, far, _, _, _ => absurd far (Nat.not_le.mpr (size_pos v))
  | .null, _, fuel + 1, depth, _, _, rest, _ => by
      simp [text, readValue, skipBlanks, isBlank, readWord?, readValue.ofOption, Document.ofJson]
  | .bool b, _, fuel + 1, depth, _, _, rest, _ => by
      cases b <;>
        simp [text, readValue, skipBlanks, isBlank, readWord?, readValue.ofOption, Document.ofJson]
  | .number n, proper, fuel + 1, depth, _, _, rest, stops => by
      rw [Proper] at proper
      rw [text, Document.ofJson]
      exact readValue_number proper fuel depth stops
  | .string s, _, fuel + 1, depth, _, _, rest, _ => by
      rw [text, toList_quote, readValue, skipBlanks_cons rfl]
      simp only [readString?_quoted]
      rfl
  | .array [], _, fuel + 1, depth, _, deep, rest, _ => by
      have deep : ¬ depth ≤ 1 := by simp [size, sizeItems] at deep; omega
      simp [text, itemsText, readValue, skipBlanks, isBlank, deep, Document.ofJson,
        Document.ofItems]
  | .array (v :: items), proper, fuel + 1, depth, far, deep, rest, _ => by
      rw [size] at far deep
      have read := readItems_text proper (by omega : sizeItems (v :: items) ≤ fuel)
        (by omega : sizeItems (v :: items) ≤ depth - 1) rest
      have deep : ¬ depth ≤ 1 := by rw [sizeItems] at deep; omega
      obtain ⟨c, cs, written, opens⟩ := text_eq_cons proper.1
      have begins : (itemsText true (v :: items)).toList ++ ']' :: rest =
          c :: (cs ++ ((itemsText false items).toList ++ ']' :: rest)) := by
        rw [itemsText_true, written, List.cons_append]
      have inside : c ≠ ']' := by
        rintro rfl
        cases opens
      have outer : (array (v :: items)).text.toList ++ rest =
          '[' :: ((itemsText true (v :: items)).toList ++ ']' :: rest) := by simp [text]
      rw [begins] at read
      rw [outer, begins, readValue, skipBlanks_cons rfl]
      simp [skipBlanks_cons (isBlank_of_opensValue opens), deep, inside, read, Document.ofJson]
  | .object [], _, fuel + 1, depth, _, deep, rest, _ => by
      have deep : ¬ depth ≤ 1 := by simp [size, sizeFields] at deep; omega
      simp [text, fieldsText, readValue, skipBlanks, isBlank, deep, Document.ofJson,
        Document.ofFields]
  | .object (e :: fields), proper, fuel + 1, depth, far, deep, rest, _ => by
      rw [size] at far deep
      have read := readEntries_text proper.2 (by omega : sizeFields (e :: fields) ≤ fuel)
        (by omega : sizeFields (e :: fields) ≤ depth - 1) rest
      obtain ⟨k, v⟩ := e
      have deep : ¬ depth ≤ 1 := by rw [sizeFields] at deep; omega
      have outer : (object ((k, v) :: fields)).text.toList ++ rest =
          '\x7b' :: ((fieldsText true ((k, v) :: fields)).toList ++ '\x7d' :: rest) := by
        simp [text]
      rw [fieldsText_true, toList_quote] at read
      rw [outer, fieldsText_true, toList_quote, readValue, skipBlanks_cons rfl]
      generalize k.toList.flatMap escapeChar ++ _ = tail at read ⊢
      simp [skipBlanks_cons (rfl : isBlank '"' = false), deep, read, Document.ofJson]

/-- The items up to the closing bracket. -/
theorem readItems_text : ∀ {v : Json} {items : List Json}, ProperItems (v :: items) →
    ∀ {fuel depth : Nat}, sizeItems (v :: items) ≤ fuel → sizeItems (v :: items) ≤ depth →
    ∀ rest : List Char, readItems fuel depth ((itemsText true (v :: items)).toList ++ ']' :: rest) =
      (Document.ofItems (v :: items), some rest)
  | v, items, proper, 0, _, far, _, _ => by simp [sizeItems] at far
  | v, [], proper, fuel + 1, depth, far, deep, rest => by
      rw [sizeItems] at far deep
      have read := readValue_text proper.1 (by omega : v.size ≤ fuel) (by omega : v.size ≤ depth)
        (stops_cons rfl : Stops extendsNumber (']' :: rest))
      rw [itemsText_true, itemsText, String.toList_empty, List.nil_append, readItems, read]
      simp only [skipBlanks_cons (rfl : isBlank ']' = false)]
      rfl
  | v, w :: items, proper, fuel + 1, depth, far, deep, rest => by
      rw [sizeItems] at far deep
      have read := readValue_text proper.1 (by omega : v.size ≤ fuel) (by omega : v.size ≤ depth)
        (stops_cons rfl : Stops extendsNumber
          (',' :: ((itemsText true (w :: items)).toList ++ ']' :: rest)))
      have others := readItems_text proper.2 (by omega : sizeItems (w :: items) ≤ fuel)
        (by omega : sizeItems (w :: items) ≤ depth) rest
      rw [itemsText_true, itemsText_false, List.cons_append, readItems, read]
      simp only [skipBlanks_cons (rfl : isBlank ',' = false), others]
      rfl

theorem readEntries_text : ∀ {e : String × Json} {fields : List (String × Json)},
    ProperFields (e :: fields) →
    ∀ {fuel depth : Nat}, sizeFields (e :: fields) ≤ fuel → sizeFields (e :: fields) ≤ depth →
    ∀ rest : List Char,
      readEntries fuel depth ((fieldsText true (e :: fields)).toList ++ '\x7d' :: rest) =
        (Document.ofFields (e :: fields), some rest)
  | e, fields, proper, 0, _, far, _, _ => by simp [sizeFields] at far
  | (k, v), [], proper, fuel + 1, depth, far, deep, rest => by
      rw [sizeFields] at far deep
      have read := readValue_text proper.1 (by omega : v.size ≤ fuel) (by omega : v.size ≤ depth)
        (stops_cons rfl : Stops extendsNumber ('\x7d' :: rest))
      rw [fieldsText_true, fieldsText, String.toList_empty, List.nil_append, toList_quote,
        readEntries, skipBlanks_cons rfl]
      simp only [readString?_quoted, skipBlanks_cons (rfl : isBlank ':' = false), read,
        skipBlanks_cons (rfl : isBlank '\x7d' = false)]
      rfl
  | (k, v), e :: fields, proper, fuel + 1, depth, far, deep, rest => by
      rw [sizeFields] at far deep
      have read := readValue_text proper.1 (by omega : v.size ≤ fuel) (by omega : v.size ≤ depth)
        (stops_cons rfl : Stops extendsNumber
          (',' :: ((fieldsText true (e :: fields)).toList ++ '\x7d' :: rest)))
      have others := readEntries_text proper.2 (by omega : sizeFields (e :: fields) ≤ fuel)
        (by omega : sizeFields (e :: fields) ≤ depth) rest
      rw [fieldsText_true, fieldsText_false, List.cons_append, toList_quote, readEntries,
        skipBlanks_cons rfl]
      simp only [readString?_quoted, skipBlanks_cons (rfl : isBlank ':' = false), read,
        skipBlanks_cons (rfl : isBlank ',' = false), others]
      rfl

end

mutual

theorem ofJson_injective : ∀ {v w : Json}, Document.ofJson v = Document.ofJson w → v = w
  | .null, w, h => by cases w <;> simp_all [Document.ofJson]
  | .bool _, w, h => by cases w <;> simp_all [Document.ofJson]
  | .number _, w, h => by cases w <;> simp_all [Document.ofJson]
  | .string _, w, h => by cases w <;> simp_all [Document.ofJson]
  | .array items, w, h => by
      cases w <;> simp only [Document.ofJson, Document.list.injEq, reduceCtorEq] at h
      exact congrArg array (ofItems_injective h)
  | .object fields, w, h => by
      cases w <;> simp only [Document.ofJson, Document.table.injEq, reduceCtorEq] at h
      exact congrArg object (ofFields_injective h)

theorem ofItems_injective : ∀ {vs ws : List Json},
    Document.ofItems vs = Document.ofItems ws → vs = ws
  | [], ws, h => by cases ws <;> simp_all [Document.ofItems]
  | v :: vs, ws, h => by
      cases ws with
      | nil => cases h
      | cons w ws =>
          rw [Document.ofItems, Document.ofItems] at h
          rw [ofJson_injective (List.cons.inj h).1, ofItems_injective (List.cons.inj h).2]

theorem ofFields_injective : ∀ {vs ws : List (String × Json)},
    Document.ofFields vs = Document.ofFields ws → vs = ws
  | [], ws, h => by cases ws <;> simp_all [Document.ofFields]
  | (k, v) :: vs, ws, h => by
      cases ws with
      | nil => cases h
      | cons e ws =>
          obtain ⟨l, w⟩ := e
          rw [Document.ofFields, Document.ofFields] at h
          obtain ⟨key, value⟩ := Prod.mk.inj (List.cons.inj h).1
          rw [Document.text.inj key, ofJson_injective value, ofFields_injective (List.cons.inj h).2]

end

/-- Two values with the same text are the same value, and what follows them is the same. -/
theorem eq_of_text_append {v w : Json} (hv : v.Proper) (hw : w.Proper) {rest rest' : List Char}
    (stops : Stops extendsNumber rest) (stops' : Stops extendsNumber rest')
    (same : v.text.toList ++ rest = w.text.toList ++ rest') : v = w ∧ rest = rest' := by
  have left := readValue_text hv (Nat.le_max_left v.size w.size) (Nat.le_max_left v.size w.size)
    stops
  have right := readValue_text hw (Nat.le_max_right v.size w.size)
    (Nat.le_max_right v.size w.size) stops'
  rw [same, right] at left
  obtain ⟨value, tail⟩ := Prod.mk.inj left
  exact ⟨(ofJson_injective value).symm, (Option.some.inj tail).symm⟩

theorem text_injective {v w : Json} (hv : v.Proper) (hw : w.Proper) (same : v.text = w.text) :
    v = w := by
  have none : Stops extendsNumber [] := nofun
  exact (eq_of_text_append hv hw none none (by rw [same])).1

end Json
end EntityGraph
