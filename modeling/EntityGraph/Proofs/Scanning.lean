import EntityGraph.Proofs.DocumentNames
import EntityGraph.Schema.Definition

/-!
What scans make of text whose parts are known. A scan reads a part when it takes all of it and no
more, whatever is ignored before it, as long as what follows cannot be taken for more of the part.
Parts that are read one by one are read together. Conversely, a property that holds of all that a
scan returns is found by following its grammar.
-/

namespace EntityGraph

namespace Scan

variable {α β : Type} {p q : Scan α} {f : α → Scan β} {a : α} {s rest : List Char}

/-! The combinators, as they run. -/

theorem bind_apply (p : Scan α) (f : α → Scan β) (s : List Char) :
    (p >>= f) s = (p s).bind fun r => f r.1 r.2 := rfl

theorem map_apply (g : α → β) (p : Scan α) (s : List Char) :
    (g <$> p) s = (p s).bind fun r => some (g r.1, r.2) := rfl

theorem orElse_apply (p q : Scan α) (s : List Char) :
    (p <|> q) s = (p s).orElse fun _ => q s := rfl

theorem bind_of (h : p s = some (a, rest)) : (p >>= f) s = f a rest := by
  rw [bind_apply, h, Option.bind_some]

theorem bind_of_none (h : p s = none) : (p >>= f) s = none := by
  rw [bind_apply, h, Option.bind_none]

theorem map_of {g : α → β} (h : p s = some (a, rest)) : (g <$> p) s = some (g a, rest) := by
  rw [map_apply, h, Option.bind_some]

theorem map_of_none {g : α → β} (h : p s = none) : (g <$> p) s = none := by
  rw [map_apply, h, Option.bind_none]

theorem orElse_of (h : p s = some (a, rest)) : (p <|> q) s = some (a, rest) := by
  rw [orElse_apply, h]
  rfl

theorem orElse_of_none (h : p s = none) : (p <|> q) s = q s := by
  rw [orElse_apply, h]
  rfl

theorem bind_congr_of {t : List Char} (h : p t = p s) : (p >>= f) t = (p >>= f) s := by
  rw [bind_apply, bind_apply, h]

theorem map_congr_of {g : α → β} {t : List Char} (h : p t = p s) : (g <$> p) t = (g <$> p) s := by
  rw [map_apply, map_apply, h]

theorem orElse_congr {t : List Char} (left : p t = p s) (right : q t = q s) :
    (p <|> q) t = (p <|> q) s := by
  rw [orElse_apply, orElse_apply, left, right]

theorem maybe_of (h : p s = some (a, rest)) : maybe p s = some (some a, rest) := by
  simp only [maybe, h]

theorem maybe_of_none (h : p s = none) : maybe p s = some (none, s) := by
  simp only [maybe, h]

theorem upTo_of_none (h : p s = none) (n : Nat) : upTo p n s = some ([], s) := by
  cases n <;> simp only [upTo, h]

theorem many_of_none (h : p s = none) : many p s = some ([], s) := upTo_of_none h _

/-! What is ignored, and what stands first behind it. -/

theorem dropIgnored_append {gap : List Char} (ignored : gap.all isIgnored = true)
    (s : List Char) : dropIgnored false (gap ++ s) = dropIgnored false s := by
  induction gap with
  | nil => rfl
  | cons c gap ih =>
      obtain ⟨here, after⟩ := Bool.and_eq_true_iff.mp ignored
      rw [List.cons_append, dropIgnored, if_pos here, ih after]

theorem word_append {gap : List Char} (ignored : gap.all isIgnored = true) (s : List Char)
    (w : String) : word w (gap ++ s) = word w s :=
  congrArg (exactly w.toList) (dropIgnored_append ignored s)

theorem string_append {gap : List Char} (ignored : gap.all isIgnored = true) (s : List Char) :
    string (gap ++ s) = string s :=
  congrArg stringHere (dropIgnored_append ignored s)

theorem dropIgnored_of_visible {c : Char} (visible : isIgnored c = false) (uncommented : c ≠ '#')
    (s : List Char) : dropIgnored false (c :: s) = c :: s := by
  simp [dropIgnored, visible, uncommented]

/-- The first character that counts. -/
def front? (s : List Char) : Option Char := (dropIgnored false s).head?

theorem word_of_front {w : String} (different : front? s ≠ w.toList.head?) (long : w ≠ "") :
    word w s = none := by
  have starts : w.toList.isPrefixOf (dropIgnored false s) = false := by
    unfold front? at different
    cases letters : w.toList with
    | nil => exact absurd (String.toList_eq_nil_iff.mp letters) long
    | cons c cs =>
        cases ahead : dropIgnored false s with
        | nil => rfl
        | cons d ds =>
            have unlike : c ≠ d := fun same => different (by rw [letters, ahead, same]; rfl)
            simp [List.isPrefixOf, unlike]
  change exactly w.toList (dropIgnored false s) = none
  simp [exactly, starts]

theorem string_of_front (different : front? s ≠ some '"') : string s = none := by
  change stringHere (dropIgnored false s) = none
  unfold front? at different
  cases ahead : dropIgnored false s with
  | nil => rfl
  | cons c cs =>
      have unlike : c ≠ '"' := fun same => different (by rw [ahead, same]; rfl)
      unfold stringHere
      split
      · rename_i same
        exact absurd (List.cons.inj same).1 unlike
      · split
        · rename_i same
          exact absurd (List.cons.inj same).1 unlike
        · rfl

theorem directives_of_front (different : front? s ≠ some '@') :
    directives false s = some ([], s) :=
  many_of_none (bind_of_none (word_of_front different (by decide)))

/-! The characters of names, of which there are few. -/

theorem toNat_lt_of_isNameChar {c : Char} (h : isNameChar c = true) : c.toNat < 128 := by
  have least : ∀ d : Char, c ≤ d → c.toNat ≤ d.toNat := fun d le => le
  simp only [isNameChar, isNameStart, isLetter, Json.isDigit, Bool.or_eq_true, Bool.and_eq_true,
    decide_eq_true_eq] at h
  obtain ((⟨_, le⟩ | ⟨_, le⟩) | rfl) | ⟨_, le⟩ := h
  · exact Nat.lt_of_le_of_lt (least _ le) (by decide)
  · exact Nat.lt_of_le_of_lt (least _ le) (by decide)
  · decide
  · exact Nat.lt_of_le_of_lt (least _ le) (by decide)

theorem of_toNat_lt {P : Char → Prop} {bound : Nat} (each : ∀ n < bound, P (Char.ofNat n))
    {c : Char} (small : c.toNat < bound) : P c := by
  have own := each c.toNat small
  rwa [Char.ofNat_toNat] at own

/-- What holds of the characters of names is found by looking at each. -/
theorem of_isNameChar {P : Char → Prop}
    (each : ∀ n < 128, isNameChar (Char.ofNat n) = true → P (Char.ofNat n)) {c : Char}
    (h : isNameChar c = true) : P c :=
  of_toNat_lt (P := fun c => isNameChar c = true → P c) each (toNat_lt_of_isNameChar h) h

theorem isNameChar_of_isNameStart {c : Char} (h : isNameStart c = true) : isNameChar c = true := by
  rw [isNameChar, h, Bool.true_or]

theorem visible_of_isNameChar {c : Char} (h : isNameChar c = true) :
    isIgnored c = false ∧ c ≠ '#' := by
  refine of_isNameChar (P := fun c => isIgnored c = false ∧ c ≠ '#') ?_ h
  decide +kernel

theorem not_isNameChar_of_isIgnored {c : Char} (h : isIgnored c = true) : isNameChar c = false := by
  by_contra named
  rw [Bool.not_eq_false] at named
  rw [(visible_of_isNameChar named).1] at h
  cases h

theorem isName_cons {n : String} (valid : isName n = true) :
    ∃ c cs, n.toList = c :: cs ∧ isNameStart c = true ∧ ∀ d ∈ cs, isNameChar d = true := by
  unfold isName at valid
  cases letters : n.toList with
  | nil => simp [letters] at valid
  | cons c cs =>
      simp only [letters, Bool.and_eq_true, List.all_eq_true] at valid
      exact ⟨c, cs, rfl, valid⟩

theorem dropIgnored_of_isName {n : String} (valid : isName n = true) {gap : List Char}
    (ignored : gap.all isIgnored = true) (rest : List Char) :
    dropIgnored false (gap ++ (n.toList ++ rest)) = n.toList ++ rest := by
  obtain ⟨c, cs, letters, start, _⟩ := isName_cons valid
  obtain ⟨visible, uncommented⟩ := visible_of_isNameChar (isNameChar_of_isNameStart start)
  rw [dropIgnored_append ignored, letters, List.cons_append,
    dropIgnored_of_visible visible uncommented]

/-- A mark that begins no name does not stand first where a name does. -/
theorem front?_of_isName {n : String} (valid : isName n = true) {gap : List Char}
    (ignored : gap.all isIgnored = true) (rest : List Char) {mark : Char}
    (other : isNameStart mark = false) : front? (gap ++ (n.toList ++ rest)) ≠ some mark := by
  obtain ⟨c, cs, letters, start, _⟩ := isName_cons valid
  rw [front?, dropIgnored_of_isName valid ignored, letters]
  rintro ⟨⟩
  rw [other] at start
  cases start

theorem string_of_isName {n : String} (valid : isName n = true) {gap : List Char}
    (ignored : gap.all isIgnored = true) (rest : List Char) :
    string (gap ++ (n.toList ++ rest)) = none :=
  string_of_front (front?_of_isName valid ignored rest rfl)

theorem word_of_isName {n : String} (valid : isName n = true) {gap : List Char}
    (ignored : gap.all isIgnored = true) (rest : List Char) (w : String) :
    word w (gap ++ (n.toList ++ rest)) = exactly w.toList (n.toList ++ rest) :=
  congrArg (exactly w.toList) (dropIgnored_of_isName valid ignored rest)

/-! Parts that are read. -/

/-- All of the text is taken as `a`, wherever it stands with `Follows` of what comes after it. -/
def Reads (p : Scan α) (text : String) (a : α) (Follows : List Char → Prop) : Prop :=
  ∀ gap rest, gap.all isIgnored = true → Follows rest →
    p (gap ++ (text.toList ++ rest)) = some (a, rest)

/-- No name goes on here. -/
def Unnamed (s : List Char) : Prop := ∀ c ∈ s.head?, isNameChar c = false

/-- No type goes on here, and no default or directive is added to one. -/
structure Apart (s : List Char) : Prop where
  unnamed : Unnamed s
  unmarked : s.head? ≠ some '!'
  undefaulted : front? s ≠ some '='
  undirected : front? s ≠ some '@'

theorem nameHere_of {n : String} (valid : isName n = true) (ends : Unnamed rest) :
    nameHere (n.toList ++ rest) = some (n, rest) := by
  obtain ⟨c, cs, letters, start, inside⟩ := isName_cons valid
  have stop : rest.takeWhile isNameChar = [] ∧ rest.dropWhile isNameChar = rest := by
    cases rest with
    | nil => exact ⟨rfl, rfl⟩
    | cons d ds =>
        have other := ends d rfl
        simp [other]
  rw [letters, List.cons_append, nameHere, if_pos start, List.takeWhile_append_of_pos inside,
    List.dropWhile_append_of_pos inside, stop.1, stop.2, List.append_nil, ← letters,
    String.ofList_toList]

theorem name_reads {n : String} (valid : isName n = true) : Reads name n n Unnamed := by
  intro gap rest ignored ends
  change nameHere (dropIgnored false (gap ++ (n.toList ++ rest))) = some (n, rest)
  rw [dropIgnored_of_isName valid ignored, nameHere_of valid ends]

/-! Items in a row. -/

/-- What stands after the first of several items, each behind a separator. -/
def tail (separator : String) (texts : List String) (close : List Char) : List Char :=
  texts.flatMap (fun text => separator.toList ++ text.toList) ++ close

theorem toList_join (separator first : String) (texts : List String) (close : List Char) :
    (Text.join separator (first :: texts)).toList ++ close =
      first.toList ++ tail separator texts close := by
  induction texts generalizing first with
  | nil => rfl
  | cons next texts ih =>
      simp only [Text.join, String.toList_append, List.append_assoc, ih, tail, List.flatMap_cons]

/-- A separator is ignored, and neither it nor the end is taken for more of an item. -/
structure Separates (p : Scan α) (separator : String) (close : List Char)
    (Follows : List Char → Prop) (texts : List String) : Prop where
  ignored : separator.toList.all isIgnored = true
  between : ∀ text ∈ texts, ∀ rest, Follows (separator.toList ++ (text.toList ++ rest))
  inhabited : ∀ text ∈ texts, text ≠ ""
  ends : Follows close
  stops : p close = none

variable {separator : String} {close : List Char} {Follows : List Char → Prop}

theorem Separates.tail {first : String} {texts : List String}
    (h : Separates p separator close Follows (first :: texts)) :
    Separates p separator close Follows texts :=
  ⟨h.ignored, fun text mem => h.between text (List.mem_cons_of_mem _ mem),
    fun text mem => h.inhabited text (List.mem_cons_of_mem _ mem), h.ends, h.stops⟩

theorem Separates.follows {texts : List String}
    (h : Separates p separator close Follows texts) :
    Follows (Scan.tail separator texts close) := by
  cases texts with
  | nil => exact h.ends
  | cons next texts =>
      have between := h.between next List.mem_cons_self (Scan.tail separator texts close)
      simpa [Scan.tail, List.append_assoc] using between

/-- By induction on the items that are left: each of them is read up to the next separator, and
takes at least one of the `n` characters that may still be looked at. -/
theorem upTo_tail {items : List β} {text : β → String} {value : β → α}
    (separates : Separates p separator close Follows (items.map text))
    (reads : ∀ x ∈ items, Reads p (text x) (value x) Follows) (n : Nat)
    (enough : (tail separator (items.map text) close).length ≤ n) :
    upTo p n (tail separator (items.map text) close) = some (items.map value, close) := by
  induction items generalizing n with
  | nil => exact upTo_of_none separates.stops n
  | cons x items ih =>
      have ahead := separates.tail
      have shape : tail separator ((x :: items).map text) close =
          separator.toList ++ ((text x).toList ++ tail separator (items.map text) close) := by
        simp only [tail, List.map_cons, List.flatMap_cons, List.append_assoc]
      have here := reads x List.mem_cons_self separator.toList _ separates.ignored ahead.follows
      have long : 0 < (text x).toList.length := by
        rw [String.length_toList]
        exact Nat.pos_of_ne_zero fun short =>
          separates.inhabited (text x) List.mem_cons_self (String.length_eq_zero_iff.mp short)
      rw [shape] at enough ⊢
      simp only [List.length_append] at enough
      cases n with
      | zero => omega
      | succ n =>
          have others := ih ahead (fun y hy => reads y (List.mem_cons_of_mem _ hy)) n (by omega)
          simp only [upTo, here, others, Option.map_some, List.map_cons]

/-- Items with separators between them are read one after the other. -/
theorem many1_join {items : List β} {text : β → String} {value : β → α} (some_item : items ≠ [])
    (separates : Separates p separator close Follows (items.map text))
    (reads : ∀ x ∈ items, Reads p (text x) (value x) Follows) {gap : List Char}
    (ignored : gap.all isIgnored = true) :
    many1 p (gap ++ ((Text.join separator (items.map text)).toList ++ close)) =
      some (items.map value, close) := by
  cases items with
  | nil => exact absurd rfl some_item
  | cons x items =>
      have ahead := separates.tail
      have first := reads x List.mem_cons_self gap _ ignored ahead.follows
      have others :
          many p (tail separator (items.map text) close) = some (items.map value, close) :=
        upTo_tail ahead (fun y hy => reads y (List.mem_cons_of_mem _ hy)) _ (Nat.le_refl _)
      rw [List.map_cons, toList_join]
      exact (bind_of first).trans (bind_of others)

/-- The text begins with a name. -/
def Leads (text : String) : Prop := ∃ n more, isName n = true ∧ text = n ++ more

theorem Leads.ne_empty {text : String} (h : Leads text) : text ≠ "" := by
  rintro rfl
  obtain ⟨n, more, valid, made⟩ := h
  obtain ⟨rfl, _⟩ := String.append_eq_empty_iff.mp made.symm
  cases valid

theorem Leads.apart {text : String} (h : Leads text) {separator : List Char}
    (ignored : separator.all isIgnored = true) (present : separator ≠ []) (rest : List Char) :
    Apart (separator ++ (text.toList ++ rest)) := by
  obtain ⟨n, more, valid, rfl⟩ := h
  rw [String.toList_append, List.append_assoc]
  cases separator with
  | nil => exact absurd rfl present
  | cons c separator =>
      have blank : isIgnored c = true := (Bool.and_eq_true_iff.mp ignored).1
      refine ⟨?_, ?_, ?_, ?_⟩
      · rintro d ⟨⟩
        exact not_isNameChar_of_isIgnored blank
      · rintro ⟨⟩
        cases blank
      · exact front?_of_isName valid ignored _ rfl
      · exact front?_of_isName valid ignored _ rfl

/-- Items that begin with names are kept apart by whatever is ignored. -/
theorem separates_of_leads {texts : List String} (leads : ∀ text ∈ texts, Leads text)
    (ignored : separator.toList.all isIgnored = true) (present : separator ≠ "")
    (ends : Apart close) (stops : p close = none) : Separates p separator close Apart texts where
  ignored := ignored
  between text mem rest :=
    (leads text mem).apart ignored (fun none => present (String.toList_eq_nil_iff.mp none)) rest
  inhabited text mem := (leads text mem).ne_empty
  ends := ends
  stops := stops

/-! What holds of every result, whatever is scanned. -/

def Yields (p : Scan α) (P : α → Prop) : Prop := ∀ s a rest, p s = some (a, rest) → P a

namespace Yields

variable {P : α → Prop} {Q : β → Prop}

theorem bind (first : Yields p P) (next : ∀ a, P a → Yields (f a) Q) : Yields (p >>= f) Q := by
  intro s b rest h
  rw [bind_apply] at h
  obtain ⟨⟨a, between⟩, found, h⟩ := Option.bind_eq_some_iff.mp h
  exact next a (first s a between found) between b rest h

theorem after (next : ∀ a, Yields (f a) Q) : Yields (p >>= f) Q :=
  bind (P := fun _ => True) (fun _ _ _ _ => trivial) fun a _ => next a

theorem return_of (h : P a) : Yields (Pure.pure a) P := by
  rintro s b rest ⟨⟩
  exact h

theorem map {g : α → β} (h : Yields p P) (image : ∀ a, P a → Q (g a)) : Yields (g <$> p) Q := by
  intro s b rest found
  rw [map_apply] at found
  obtain ⟨⟨a, between⟩, here, ⟨⟩⟩ := Option.bind_eq_some_iff.mp found
  exact image a (h s a between here)

theorem orElse (left : Yields p P) (right : Yields q P) : Yields (p <|> q) P := by
  intro s a rest h
  rw [orElse_apply] at h
  cases found : p s with
  | none =>
      rw [found] at h
      exact right s a rest h
  | some r =>
      rw [found] at h
      cases h
      exact left s a rest found

theorem maybe (h : Yields p P) : Yields (Scan.maybe p) fun a? => ∀ a ∈ a?, P a := by
  intro s a? rest found a ha
  unfold Scan.maybe at found
  split at found
  · rename_i b between here
    cases found
    cases ha
    exact h s a _ here
  · cases found
    cases ha

theorem upTo (h : Yields p P) (n : Nat) : Yields (Scan.upTo p n) fun as => ∀ a ∈ as, P a := by
  induction n with
  | zero =>
      rintro s as rest ⟨⟩
      exact List.forall_mem_nil P
  | succ n ih =>
      intro s as rest found
      unfold Scan.upTo at found
      split at found
      · cases found
        exact List.forall_mem_nil P
      · rename_i a between here
        obtain ⟨⟨others, _⟩, more, ⟨⟩⟩ := Option.map_eq_some_iff.mp found
        exact List.forall_mem_cons.mpr ⟨h s a between here, ih between others _ more⟩

theorem many (h : Yields p P) : Yields (Scan.many p) fun as => ∀ a ∈ as, P a :=
  fun s => h.upTo s.length s

theorem many1 (h : Yields p P) : Yields (Scan.many1 p) fun as => ∀ a ∈ as, P a :=
  bind h fun _ first => bind h.many fun _ others =>
    return_of (List.forall_mem_cons.mpr ⟨first, others⟩)

end Yields

theorem nameHere_yields : Yields nameHere fun n => isName n = true := by
  intro s n rest found
  cases s with
  | nil => cases found
  | cons c cs =>
      rw [nameHere] at found
      obtain ⟨start, read⟩ := Option.ite_none_right_eq_some.mp found
      obtain ⟨rfl, _⟩ := Prod.mk.inj (Option.some.inj read)
      rw [isName, String.toList_ofList]
      exact Bool.and_eq_true_iff.mpr ⟨start, List.all_takeWhile⟩

theorem name_yields : Yields name fun n => isName n = true :=
  .after fun _ => nameHere_yields

end Scan

end EntityGraph
