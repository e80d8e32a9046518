import Mathlib.Data.List.Chain
import EntityGraph.Proofs.SelectStatement

/-!
How the text of a statement is read. Outside of quotes are only characters that stand for
themselves, and no two names touch, so each quote is closed where it was meant to be, whatever the
characters of the name. What is bound is not in the text, only how much of it there is.
-/

namespace EntityGraph
namespace Sql

/-- What a text is read as: the names in double quotes and the characters between them. -/
inductive Token where
  | quoted (name : String)
  | plain (c : Char)
deriving DecidableEq, Repr

namespace Token

/-- A letter, a digit, a blank or a sign that opens nothing. -/
def isPlain (c : Char) : Bool := c.isAlphanum || " \n(),=<>?".toList.contains c

/-- The character stands for itself in front of the rest. A minus does so if a digit follows; two
of them open a comment. -/
def standsAlone (c : Char) (rest : List Char) : Bool :=
  isPlain c || (c = '-' && rest.head?.any Char.isDigit)

/-- Reads on from quotes that are open and hold the given characters so far, or from outside. Two
quotes inside stand for one. What opens another kind of quotes or a comment is not read. -/
def readFrom : Option (List Char) → List Char → Option (List Token)
  | none, [] => some []
  | none, c :: rest =>
      if c = '"' then readFrom (some []) rest
      else if standsAlone c rest then (readFrom none rest).map (plain c :: ·)
      else none
  | some _, [] => none
  | some held, '"' :: '"' :: rest => readFrom (some (held ++ ['"'])) rest
  | some held, '"' :: rest => (readFrom none rest).map (quoted (String.ofList held) :: ·)
  | some held, c :: rest => readFrom (some (held ++ [c])) rest

/-- The tokens of a text, if it can be read. -/
def ofText? (text : String) : Option (List Token) := readFrom none text.toList

/-- The token with its name changed. -/
def rename (f : String → String) : Token → Token
  | quoted name => quoted (f name)
  | plain c => plain c

/-- All characters stand for themselves. -/
def allPlain : List Char → Bool
  | [] => true
  | c :: rest => standsAlone c rest && allPlain rest

theorem readFrom_name (held name rest : List Char) (apart : rest.head? ≠ some '"') :
    readFrom (some held)
        ((name.flatMap fun c => if c = '"' then ['"', '"'] else [c]) ++ '"' :: rest) =
      (readFrom none rest).map (quoted (String.ofList (held ++ name)) :: ·) := by
  induction name generalizing held with
  | nil =>
      cases rest with
      | nil => simp [readFrom]
      | cons c rest =>
          have other : c ≠ '"' := fun same => apart (congrArg some same)
          simp [readFrom, other]
  | cons c name ih =>
      by_cases quote : c = '"'
      · subst quote
        simp [readFrom, ih]
      · simp [readFrom, quote, ih]

theorem readFrom_quoteName (name : String) {rest : List Char} (apart : rest.head? ≠ some '"') :
    readFrom none ((quoteName name).toList ++ rest) =
      (readFrom none rest).map (quoted name :: ·) := by
  have spelled : (quoteName name).toList ++ rest = '"' ::
      ((name.toList.flatMap fun c => if c = '"' then ['"', '"'] else [c]) ++ '"' :: rest) := by
    simp [quoteName]
  rw [spelled, readFrom, if_pos rfl, readFrom_name [] name.toList rest apart]
  simp

theorem ne_quote_of_standsAlone {c : Char} {rest : List Char} (h : standsAlone c rest = true) :
    c ≠ '"' := by
  rintro rfl
  have opens : isPlain '"' = false := by decide
  simp [standsAlone, opens] at h

theorem standsAlone_append {c : Char} {rest : List Char} (h : standsAlone c rest = true)
    (more : List Char) : standsAlone c (rest ++ more) = true := by
  cases rest with
  | nil =>
      have sign : isPlain c = true := by simpa [standsAlone] using h
      simp [standsAlone, sign]
  | cons d rest => exact h

theorem allPlain_append {cs ds : List Char} (hc : allPlain cs = true) (hd : allPlain ds = true) :
    allPlain (cs ++ ds) = true := by
  induction cs with
  | nil => exact hd
  | cons c cs ih =>
      obtain ⟨alone, plainly⟩ := Bool.and_eq_true_iff.mp hc
      exact Bool.and_eq_true_iff.mpr ⟨standsAlone_append alone ds, ih plainly⟩

theorem readFrom_plain {cs : List Char} (plainly : allPlain cs = true) (rest : List Char) :
    readFrom none (cs ++ rest) = (readFrom none rest).map (cs.map plain ++ ·) := by
  induction cs with
  | nil => simp
  | cons c cs ih =>
      obtain ⟨alone, plainly⟩ := Bool.and_eq_true_iff.mp plainly
      rw [List.cons_append, readFrom, if_neg (ne_quote_of_standsAlone alone),
        if_pos (standsAlone_append alone rest), ih plainly, Option.map_map]
      rfl

theorem allPlain_digits {cs : List Char} (digits : ∀ c ∈ cs, c.isDigit = true) :
    allPlain cs = true := by
  induction cs with
  | nil => rfl
  | cons c cs ih =>
      obtain ⟨digit, digits⟩ := List.forall_mem_cons.mp digits
      have sign : isPlain c = true := by simp [isPlain, Char.isAlphanum, digit]
      simp [allPlain, standsAlone, sign, ih digits]

end Token

namespace Piece

@[simp]
def isName : Piece → Bool
  | name _ => true
  | words _ | value _ => false

/-- Words are there and stand for themselves. -/
def Plain : Piece → Prop
  | words s => s ≠ "" ∧ Token.allPlain s.toList = true
  | name _ | value _ => True

instance (p : Piece) : Decidable p.Plain := by
  cases p <;> unfold Plain <;> infer_instance

/-- Two pieces of which one is not a name. -/
def Apart (p q : Piece) : Prop := p.isName = false ∨ q.isName = false

/-- Words are plain, and there is something between each two names. -/
structure Legible (ps : List Piece) : Prop where
  plain : ∀ p ∈ ps, p.Plain
  apart : ps.IsChain Apart

section Legible

variable {ps qs : List Piece}

theorem legible_nil : Legible [] := ⟨nofun, .nil⟩

theorem legible_cons {p : Piece} (hp : p.Plain) (hq : Legible qs)
    (apart : ∀ q ∈ qs.head?, p.Apart q) : Legible (p :: qs) := by
  refine ⟨List.forall_mem_cons.mpr ⟨hp, hq.plain⟩, ?_⟩
  exact List.isChain_cons.mpr ⟨apart, hq.apart⟩

theorem legible_words {s : String} (hs : (words s).Plain) (hq : Legible qs) :
    Legible (words s :: qs) :=
  legible_cons hs hq fun _ _ => .inl rfl

theorem legible_value (v : Json) (hq : Legible qs) : Legible (value v :: qs) :=
  legible_cons trivial hq fun _ _ => .inl rfl

theorem legible_name (n : String) (hq : Legible qs) (apart : ∀ q ∈ qs.head?, q.isName = false) :
    Legible (name n :: qs) :=
  legible_cons trivial hq fun q hq => .inr (apart q hq)

theorem legible_name_words (n : String) {s : String} (hs : (words s).Plain) (hq : Legible qs) :
    Legible (name n :: words s :: qs) := by
  refine legible_name n (legible_words hs hq) ?_
  rintro q ⟨⟩
  rfl

theorem legible_singleton (n : String) : Legible [name n] := legible_name n legible_nil nofun

theorem Legible.append (hp : Legible ps) (hq : Legible qs)
    (apart : ∀ q ∈ qs.head?, q.isName = false) : Legible (ps ++ qs) := by
  refine ⟨List.forall_mem_append.mpr ⟨hp.plain, hq.plain⟩, ?_⟩
  exact List.isChain_append.mpr ⟨hp.apart, hq.apart, fun _ _ q hq => .inr (apart q hq)⟩

theorem Legible.append_words (hp : Legible ps) {s : String} (hs : (words s).Plain)
    (hq : Legible qs) : Legible (ps ++ words s :: qs) := by
  refine hp.append (legible_words hs hq) ?_
  rintro q ⟨⟩
  rfl

theorem Legible.append_unless (hp : Legible ps) {s : String} (hs : (words s).Plain)
    (hq : Legible qs) (empty : Bool) :
    Legible (ps ++ if empty then [] else words s :: qs) := by
  cases empty with
  | false => exact hp.append_words hs hq
  | true => exact (List.append_nil ps).symm ▸ hp

theorem legible_separated {separator : String} (hs : (words separator).Plain)
    {items : List (List Piece)} (h : ∀ ps ∈ items, Legible ps) :
    Legible (separated separator items) := by
  induction items with
  | nil => exact legible_nil
  | cons ps rest ih =>
      obtain ⟨hps, hrest⟩ := List.forall_mem_cons.mp h
      cases rest with
      | nil => exact hps
      | cons next rest => exact hps.append_words hs (ih hrest)

theorem legible_names (ns : List String) : Legible (names ns) := by
  refine legible_separated (by decide) fun ps hps => ?_
  obtain ⟨n, _, rfl⟩ := List.mem_map.mp hps
  exact legible_singleton n

theorem legible_values (vs : List Json) : Legible (values vs) := by
  refine legible_separated (by decide) fun ps hps => ?_
  obtain ⟨v, _, rfl⟩ := List.mem_map.mp hps
  exact legible_value v legible_nil

end Legible

/-- The tokens of the text from the placeholder number `next` on. -/
def tokensFrom (next : Nat) : List Piece → List Token
  | [] => []
  | words s :: rest => s.toList.map .plain ++ tokensFrom next rest
  | name s :: rest => .quoted s :: tokensFrom next rest
  | value _ :: rest =>
      .plain '?' :: (toString next).toList.map .plain ++ tokensFrom (next + 1) rest

theorem toList_textFrom_value (next : Nat) (v : Json) (rest : List Piece) :
    (textFrom next (value v :: rest)).toList =
      ('?' :: (toString next).toList) ++ (textFrom (next + 1) rest).toList := by
  simp [textFrom]

theorem isDigit_of_mem_toString {n : Nat} {c : Char} (h : c ∈ (toString n).toList) :
    c.isDigit = true := by
  refine Nat.isDigit_of_mem_toDigits (b := 10) (by decide) (by decide) (n := n) ?_
  simpa using h

theorem allPlain_toString (n : Nat) : Token.allPlain (toString n).toList = true :=
  Token.allPlain_digits fun _ => isDigit_of_mem_toString

/-- The text does not go on the quotes of a name before it. -/
theorem head?_textFrom {ps : List Piece} (h : Legible ps)
    (apart : ∀ p ∈ ps.head?, p.isName = false) (next : Nat) :
    (textFrom next ps).toList.head? ≠ some '"' := by
  cases ps with
  | nil => simp [textFrom]
  | cons p rest =>
      cases p with
      | name n => cases apart _ rfl
      | value v =>
          rw [toList_textFrom_value]
          simp
      | words s =>
          obtain ⟨present, plain⟩ := h.plain _ List.mem_cons_self
          rw [textFrom, String.toList_append]
          cases letters : s.toList with
          | nil => exact absurd (String.toList_inj.mp letters) present
          | cons c cs =>
              rw [letters] at plain
              have alone := (Bool.and_eq_true_iff.mp plain).1
              intro same
              exact Token.ne_quote_of_standsAlone alone (Option.some.inj same)

theorem readFrom_textFrom {ps : List Piece} (h : Legible ps) (next : Nat) :
    Token.readFrom none (textFrom next ps).toList = some (tokensFrom next ps) := by
  induction ps generalizing next with
  | nil => rfl
  | cons p rest ih =>
      obtain ⟨apart, chain⟩ := List.isChain_cons.mp h.apart
      have legible : Legible rest := ⟨fun q hq => h.plain q (List.mem_cons_of_mem _ hq), chain⟩
      cases p with
      | words s =>
          have plain := (h.plain _ List.mem_cons_self).2
          rw [textFrom, String.toList_append, Token.readFrom_plain plain, ih legible]
          rfl
      | name n =>
          have others : ∀ q ∈ rest.head?, q.isName = false :=
            fun q hq => (apart q hq).resolve_left nofun
          rw [textFrom, String.toList_append,
            Token.readFrom_quoteName n (head?_textFrom legible others next), ih legible]
          rfl
      | value v =>
          have plain : Token.allPlain ('?' :: (toString next).toList) = true :=
            Bool.and_eq_true_iff.mpr ⟨rfl, allPlain_toString next⟩
          rw [toList_textFrom_value, Token.readFrom_plain plain, ih legible]
          rfl

theorem quoted_mem_tokensFrom {n : String} {ps : List Piece} {next : Nat} :
    .quoted n ∈ tokensFrom next ps ↔ name n ∈ ps := by
  induction ps generalizing next with
  | nil => simp [tokensFrom]
  | cons p rest ih => cases p <;> simp [tokensFrom, ih]

/-- The piece with its name changed, and without its value. -/
def image (f : String → String) : Piece → Piece
  | words s => words s
  | name s => name (f s)
  | value _ => value .null

theorem textFrom_map_image (ps : List Piece) (next : Nat) :
    textFrom next (ps.map (image id)) = textFrom next ps := by
  induction ps generalizing next with
  | nil => rfl
  | cons p rest ih => cases p <;> simp [image, textFrom, ih]

theorem tokensFrom_map_image (f : String → String) (ps : List Piece) (next : Nat) :
    tokensFrom next (ps.map (image f)) = (tokensFrom next ps).map (Token.rename f) := by
  induction ps generalizing next with
  | nil => rfl
  | cons p rest ih => cases p <;> simp [image, tokensFrom, Token.rename, ih, Function.comp_def]

end Piece

open Piece

theorem plain_columnType (t : ColumnType) (primary : Bool) :
    (words (" " ++ t.name ++ if primary then " PRIMARY KEY" else "")).Plain := by
  cases t <;> cases primary <;> decide +kernel

theorem plain_sign (how : Comparison) : (words (" " ++ how.sign ++ " ")).Plain := by
  cases how <;> decide +kernel

theorem Piece.plain_append {s t : String} (hs : (words s).Plain)
    (ht : Token.allPlain t.toList = true) : (words (s ++ t)).Plain := by
  refine ⟨?_, ?_⟩
  · intro nothing
    exact hs.1 (String.append_eq_empty_iff.mp nothing).1
  · rw [String.toList_append]
    exact Token.allPlain_append hs.2 ht

theorem ColumnDef.legible_pieces (c : ColumnDef) : Legible c.pieces :=
  legible_name_words _ (plain_columnType _ _) legible_nil

theorem Condition.legible_pieces (c : Condition) : Legible c.pieces := by
  cases c with
  | never => exact legible_words (by decide +kernel) legible_nil
  | isIn c vs =>
      refine legible_name_words c (by decide +kernel) ?_
      exact (legible_values vs).append_words (by decide +kernel) legible_nil
  | notIn c vs =>
      refine legible_name_words c (by decide +kernel) ?_
      exact (legible_values vs).append_words (by decide +kernel) legible_nil
  | compare c how v =>
      exact legible_name_words c (plain_sign how) (legible_value v legible_nil)
  | contains c v =>
      refine legible_words (by decide +kernel) (legible_name_words c (by decide +kernel) ?_)
      exact legible_value v (legible_words (by decide +kernel) legible_nil)
  | containsNoCase c v =>
      refine legible_words (by decide +kernel) (legible_name_words c (by decide +kernel) ?_)
      exact legible_value v (legible_words (by decide +kernel) legible_nil)
  | isNull c => exact legible_name_words c (by decide +kernel) legible_nil
  | isNotNull c => exact legible_name_words c (by decide +kernel) legible_nil

/-- A page is said in one piece, or not at all. -/
theorem Select.pagePieces_cases (limit offset : Option Nat) :
    pagePieces limit offset = [] ∨
      ∃ s, pagePieces limit offset = [words s] ∧ (words s).Plain := by
  have limited (n : Nat) : (words (" LIMIT " ++ toString n)).Plain :=
    plain_append (by decide +kernel) (allPlain_toString n)
  have shifted {s : String} (hs : (words s).Plain) (m : Nat) :
      (words (s ++ " OFFSET " ++ toString m)).Plain :=
    plain_append (plain_append hs (by decide +kernel)) (allPlain_toString m)
  unfold pagePieces
  split
  · exact .inr ⟨_, rfl, limited _⟩
  · exact .inr ⟨_, rfl, shifted (limited _) _⟩
  · exact .inl rfl
  · exact .inr ⟨_, rfl, shifted (s := " LIMIT -1") (by decide +kernel) _⟩

theorem Select.legible_pieces (s : Select) : Legible s.pieces := by
  have columns : Legible (if s.columns.isEmpty then [words "SELECT 1"]
      else words "SELECT " :: names s.columns) := by
    split
    · exact legible_words (by decide +kernel) legible_nil
    · exact legible_words (by decide +kernel) (legible_names _)
  have conditions : Legible (separated " AND " (s.conditions.map Condition.pieces)) := by
    refine legible_separated (by decide +kernel) fun ps hps => ?_
    obtain ⟨c, _, rfl⟩ := List.mem_map.mp hps
    exact c.legible_pieces
  have order : Legible (orderPieces s.order) := by
    refine legible_separated (by decide +kernel) fun ps hps => ?_
    obtain ⟨k, _, rfl⟩ := List.mem_map.mp hps
    exact legible_name_words _ (by cases k.descending <;> decide +kernel) legible_nil
  have selection := columns.append_words (s := " FROM ") (by decide +kernel)
    (legible_singleton s.table)
  have clauses := (selection.append_unless (s := " WHERE ") (by decide +kernel) conditions
    s.conditions.isEmpty).append_unless (s := " ORDER BY ") (by decide +kernel) order
    s.order.isEmpty
  unfold pieces
  obtain nothing | ⟨w, said, plain⟩ := pagePieces_cases s.limit s.offset
  · rw [nothing, List.append_nil]
    exact clauses
  · rw [said]
    exact clauses.append_words plain legible_nil

namespace Statement

theorem legible_columnPieces (columns : List ColumnDef) : Legible (columnPieces columns) := by
  refine legible_separated (by decide +kernel) fun ps hps => ?_
  obtain ⟨c, _, rfl⟩ := List.mem_map.mp hps
  exact c.legible_pieces

theorem legible_assignmentPieces (values : List (String × Json)) :
    Legible (assignmentPieces values) := by
  refine legible_separated (by decide +kernel) fun ps hps => ?_
  obtain ⟨v, _, rfl⟩ := List.mem_map.mp hps
  exact legible_name_words _ (by decide +kernel) (legible_value _ legible_nil)

theorem legible_name_keyPieces (n column : String) (key : Json) {qs : List Piece}
    (hq : Legible qs) : Legible (name n :: (keyPieces column key ++ qs)) :=
  legible_name_words n (by decide +kernel)
    (legible_name_words column (by decide +kernel) (legible_value key hq))

theorem legible_pieces (s : Statement) : Legible s.pieces := by
  cases s with
  | createTable table columns =>
      refine legible_words (by decide +kernel) (legible_name_words table (by decide +kernel) ?_)
      exact (legible_columnPieces columns).append_words (by decide +kernel) legible_nil
  | select s => exact s.legible_pieces
  | insert table values returning =>
      cases values with
      | nil =>
          refine legible_words (by decide +kernel) ?_
          exact legible_name_words table (by decide +kernel) (legible_names returning)
      | cons v rest =>
          simp only [pieces, List.append_assoc, List.cons_append, List.nil_append]
          refine legible_words (by decide +kernel) ?_
          refine legible_name_words table (by decide +kernel) ?_
          refine (legible_names _).append_words (by decide +kernel) ?_
          exact (legible_values _).append_words (by decide +kernel) (legible_names returning)
  | update table values keyColumn key returning =>
      cases values with
      | nil =>
          simp only [pieces, List.append_assoc, List.cons_append, List.nil_append]
          refine legible_words (by decide +kernel) ?_
          refine (legible_names returning).append_words (by decide +kernel) ?_
          simpa using legible_name_keyPieces table keyColumn key legible_nil
      | cons v rest =>
          simp only [pieces, List.append_assoc, List.cons_append, List.nil_append]
          refine legible_words (by decide +kernel) ?_
          refine legible_name_words table (by decide +kernel) ?_
          refine (legible_assignmentPieces _).append_words (by decide +kernel) ?_
          refine legible_name_words keyColumn (by decide +kernel) (legible_value key ?_)
          exact legible_words (by decide +kernel) (legible_names returning)
  | delete table keyColumn key =>
      refine legible_words (by decide +kernel) ?_
      simpa using legible_name_keyPieces table keyColumn key legible_nil

/-- Every text can be read. -/
theorem ofText?_text (s : Statement) : Token.ofText? s.text = some (tokensFrom 1 s.pieces) :=
  readFrom_textFrom s.legible_pieces 1

/-- The statements differ in what they bind and in their names, which `f` takes from the one to
the other. -/
def Alike (f : String → String) (s t : Statement) : Prop :=
  t.pieces.map (image id) = s.pieces.map (image f)

theorem Alike.tokens {f : String → String} {s t : Statement} (h : s.Alike f t) :
    Token.ofText? t.text = (Token.ofText? s.text).map (List.map (Token.rename f)) := by
  have same : tokensFrom 1 t.pieces = (tokensFrom 1 s.pieces).map (Token.rename f) := by
    rw [← tokensFrom_map_image, ← h, tokensFrom_map_image]
    have whole : Token.rename id = id := by
      funext token
      cases token <;> rfl
    rw [whole, List.map_id]
  rw [ofText?_text, ofText?_text, same]
  rfl

theorem Alike.text_eq {s t : Statement} (h : s.Alike id t) : t.text = s.text := by
  rw [text, text, ← textFrom_map_image t.pieces, h, textFrom_map_image]

end Statement

/-! The names of a statement. -/

theorem Piece.name_mem_separated {n separator : String} {items : List (List Piece)} :
    name n ∈ separated separator items ↔ ∃ ps ∈ items, name n ∈ ps := by
  induction items with
  | nil => simp [separated]
  | cons ps rest ih =>
      cases rest with
      | nil => simp [separated]
      | cons next rest =>
          rw [separated_cons_cons, List.mem_append, List.mem_cons, ih]
          simp

theorem Piece.name_mem_names {n : String} {ns : List String} : name n ∈ names ns ↔ n ∈ ns := by
  simp [names, name_mem_separated]

theorem Piece.not_name_mem_values {n : String} {vs : List Json} : name n ∉ values vs := by
  simp [values, name_mem_separated]

theorem Condition.name_mem_pieces {n : String} {c : Condition} :
    name n ∈ c.pieces ↔ c.column? = some n := by
  cases c <;> simp [pieces, column?, not_name_mem_values, eq_comm]

theorem Select.name_mem_pieces {n : String} {s : Select} : name n ∈ s.pieces ↔
    n ∈ s.columns ∨ n = s.table ∨ (∃ c ∈ s.conditions, c.column? = some n) ∨
      ∃ k ∈ s.order, n = k.field := by
  have columns : (name n ∈ if s.columns.isEmpty then [words "SELECT 1"]
      else words "SELECT " :: names s.columns) ↔ n ∈ s.columns := by
    cases s.columns <;> simp [name_mem_names]
  have conditions : (name n ∈ if s.conditions.isEmpty then []
      else words " WHERE " :: separated " AND " (s.conditions.map Condition.pieces)) ↔
      ∃ c ∈ s.conditions, c.column? = some n := by
    cases s.conditions <;> simp [name_mem_separated, Condition.name_mem_pieces]
  have order :
      (name n ∈ if s.order.isEmpty then [] else words " ORDER BY " :: orderPieces s.order) ↔
        ∃ k ∈ s.order, n = k.field := by
    cases s.order <;> simp [orderPieces, name_mem_separated]
  have page : name n ∉ pagePieces s.limit s.offset := by
    obtain nothing | ⟨w, said, _⟩ := pagePieces_cases s.limit s.offset
    · rw [nothing]
      exact List.not_mem_nil
    · simp [said]
  rw [pieces, List.mem_append, List.mem_append, List.mem_append, List.mem_append, columns,
    conditions, order]
  simp [page, or_assoc]

namespace Statement

theorem name_mem_createTable {n table : String} {columns : List ColumnDef} :
    name n ∈ (createTable table columns).pieces ↔ n = table ∨ ∃ c ∈ columns, n = c.name := by
  simp [pieces, columnPieces, name_mem_separated, ColumnDef.pieces]

theorem name_mem_insert {n table : String} {values : List (String × Json)}
    {returning : List String} : name n ∈ (insert table values returning).pieces ↔
      n = table ∨ n ∈ Dict.keys values ∨ n ∈ returning := by
  cases values <;> simp [pieces, name_mem_names, not_name_mem_values, Dict.keys, or_assoc]

theorem name_mem_keyPieces {n column : String} {key : Json} :
    name n ∈ keyPieces column key ↔ n = column := by
  simp [keyPieces]

theorem name_mem_assignmentPieces {n : String} {values : List (String × Json)} :
    name n ∈ assignmentPieces values ↔ n ∈ Dict.keys values := by
  simp [assignmentPieces, name_mem_separated, Dict.keys, eq_comm]

theorem name_mem_update {n table column : String} {values : List (String × Json)} {key : Json}
    {returning : List String} : name n ∈ (update table values column key returning).pieces ↔
      n = table ∨ n = column ∨ n ∈ Dict.keys values ∨ n ∈ returning := by
  cases values with
  | nil =>
      simp only [pieces, List.mem_append, List.mem_cons, name_mem_names, name_mem_keyPieces]
      simp [Dict.keys]
      tauto
  | cons v rest =>
      simp only [pieces, List.mem_append, List.mem_cons, name_mem_names, name_mem_keyPieces,
        name_mem_assignmentPieces]
      simp
      tauto

theorem name_mem_delete {n table column : String} {key : Json} :
    name n ∈ (delete table column key).pieces ↔ n = table ∨ n = column := by
  simp [pieces, keyPieces]

end Statement
end Sql
end EntityGraph
