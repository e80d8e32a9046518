import EntityGraph.Proofs.StatementText

/-!
The placeholders of a statement, as they are read from its text. Outside of quotes a question mark
opens a placeholder and nothing else, and the digits behind it end where its number does. So the
placeholders count up from one, each stands by the column that its value is for, and they are as
many as the values that are bound.
-/

namespace EntityGraph
namespace Sql

/-- A question mark outside of quotes. -/
structure Placeholder where
  /-- The digits behind it. -/
  number : String
  /-- The last name in quotes before it. -/
  column : Option String
deriving DecidableEq, Repr

namespace Token

def quoted? : Token → Option String
  | quoted name => some name
  | plain _ => none

/-- The names in quotes. -/
def names (tokens : List Token) : List String := tokens.filterMap quoted?

/-- The digits up to the first token that is none. -/
def digitsAhead : List Token → List Char
  | plain c :: rest => if c.isDigit then c :: digitsAhead rest else []
  | _ => []

def placeholdersFrom (last : Option String) : List Token → List Placeholder
  | [] => []
  | quoted name :: rest => placeholdersFrom (some name) rest
  | plain c :: rest =>
      if c = '?' then ⟨String.ofList (digitsAhead rest), last⟩ :: placeholdersFrom last rest
      else placeholdersFrom last rest

/-- The placeholders from left to right. -/
def placeholders (tokens : List Token) : List Placeholder := placeholdersFrom none tokens

theorem placeholdersFrom_plain {cs : List Char} (quiet : '?' ∉ cs) (last : Option String)
    (rest : List Token) :
    placeholdersFrom last (cs.map plain ++ rest) = placeholdersFrom last rest := by
  induction cs with
  | nil => rfl
  | cons c cs ih =>
      obtain ⟨other, quiet⟩ := List.ne_and_not_mem_of_not_mem_cons quiet
      rw [List.map_cons, List.cons_append, placeholdersFrom, if_neg other.symm, ih quiet]

theorem digitsAhead_digits {cs : List Char} (digits : ∀ c ∈ cs, c.isDigit = true)
    {rest : List Token} (ends : digitsAhead rest = []) :
    digitsAhead (cs.map plain ++ rest) = cs := by
  induction cs with
  | nil => exact ends
  | cons c cs ih =>
      obtain ⟨digit, digits⟩ := List.forall_mem_cons.mp digits
      rw [List.map_cons, List.cons_append, digitsAhead, if_pos digit, ih digits]

end Token

namespace Piece

/-- No placeholder is opened by words. -/
def quiet : Piece → Bool
  | words s => !s.toList.contains '?'
  | name _ | value _ => true

/-- A number that stands before the piece ends there. -/
def ends : Piece → Bool
  | words s => s.toList.head?.any (!·.isDigit)
  | name _ => true
  | value _ => false

theorem quiet_words {s : String} : (words s).quiet = true ↔ '?' ∉ s.toList := by simp [quiet]

/-- Words open no placeholder, and no value is followed by another or by a digit. -/
inductive Spaced : List Piece → Prop
  | nil : Spaced []
  | words {s : String} {ps : List Piece} :
      (words s).quiet = true → Spaced ps → Spaced (.words s :: ps)
  | name {n : String} {ps : List Piece} : Spaced ps → Spaced (.name n :: ps)
  | value {v : Json} {ps : List Piece} :
      (∀ q ∈ ps.head?, q.ends = true) → Spaced ps → Spaced (.value v :: ps)

section Spaced

variable {ps qs : List Piece}

theorem Spaced.append (hp : Spaced ps) (hq : Spaced qs) (ends : ∀ q ∈ qs.head?, q.ends = true) :
    Spaced (ps ++ qs) := by
  induction hp with
  | nil => exact hq
  | words quiet _ ih => exact .words quiet ih
  | name _ ih => exact .name ih
  | @value v ps after _ ih =>
      refine .value ?_ ih
      cases ps with
      | nil => exact ends
      | cons p ps => exact after

theorem Spaced.append_words (hp : Spaced ps) {s : String} (quiet : (.words s : Piece).quiet = true)
    (ends : (.words s : Piece).ends = true) (hq : Spaced qs) : Spaced (ps ++ .words s :: qs) := by
  apply hp.append (.words quiet hq)
  rintro q ⟨⟩
  exact ends

theorem Spaced.append_unless (hp : Spaced ps) {s : String} (quiet : (.words s : Piece).quiet = true)
    (ends : (.words s : Piece).ends = true) (hq : Spaced qs) (empty : Bool) :
    Spaced (ps ++ if empty then [] else .words s :: qs) := by
  cases empty with
  | false => exact hp.append_words quiet ends hq
  | true => exact (List.append_nil ps).symm ▸ hp

theorem spaced_separated {separator : String} (quiet : (words separator).quiet = true)
    (ends : (words separator).ends = true) {items : List (List Piece)}
    (h : ∀ ps ∈ items, Spaced ps) : Spaced (separated separator items) := by
  induction items with
  | nil => exact .nil
  | cons ps rest ih =>
      obtain ⟨hps, hrest⟩ := List.forall_mem_cons.mp h
      cases rest with
      | nil => exact hps
      | cons next rest => exact hps.append_words quiet ends (ih hrest)

theorem spaced_names (ns : List String) : Spaced (names ns) := by
  apply spaced_separated (by decide +kernel) (by decide +kernel)
  intro ps hps
  obtain ⟨n, _, rfl⟩ := List.mem_map.mp hps
  exact .name .nil

theorem spaced_value (v : Json) : Spaced [value v] := .value nofun .nil

theorem spaced_values (vs : List Json) : Spaced (values vs) := by
  apply spaced_separated (by decide +kernel) (by decide +kernel)
  intro ps hps
  obtain ⟨v, _, rfl⟩ := List.mem_map.mp hps
  exact spaced_value v

theorem spaced_list (column : String) {s t : String} (hs : (words s).quiet = true)
    (ht : (words t).quiet = true) (ends : (words t).ends = true) (vs : List Json) :
    Spaced ([.name column, .words s] ++ values vs ++ [.words t]) := by
  rw [List.append_assoc]
  exact .name (.words hs ((spaced_values vs).append_words ht ends .nil))

end Spaced

/-- The values with the last name before each. -/
def slotsFrom (last : Option String) : List Piece → List (Option String × Json)
  | [] => []
  | words _ :: rest => slotsFrom last rest
  | name n :: rest => slotsFrom (some n) rest
  | value v :: rest => (last, v) :: slotsFrom last rest

theorem quiet_toString (n : Nat) : (words (toString n)).quiet = true :=
  quiet_words.mpr fun h => absurd (isDigit_of_mem_toString h) (by decide)

theorem digitsAhead_tokensFrom {ps : List Piece} (ends : ∀ q ∈ ps.head?, q.ends = true)
    (next : Nat) : Token.digitsAhead (tokensFrom next ps) = [] := by
  cases ps with
  | nil => rfl
  | cons p rest =>
      cases p with
      | name n => rfl
      | value v => cases ends _ rfl
      | words s =>
          have first : s.toList.head?.any (!·.isDigit) = true := ends _ rfl
          cases letters : s.toList with
          | nil =>
              rw [letters] at first
              cases first
          | cons c cs =>
              rw [letters] at first
              rw [tokensFrom, letters, List.map_cons, List.cons_append, Token.digitsAhead, if_neg]
              simpa using first

/-- The placeholders of the text are those of the values, numbered in their order. -/
theorem placeholdersFrom_tokensFrom {ps : List Piece} (h : Spaced ps) (last : Option String)
    (next : Nat) :
    Token.placeholdersFrom last (tokensFrom next ps) =
      ((slotsFrom last ps).zipIdx next).map fun slot => ⟨toString slot.2, slot.1.1⟩ := by
  induction h generalizing last next with
  | nil => rfl
  | words quiet _ ih =>
      rw [tokensFrom, Token.placeholdersFrom_plain (quiet_words.mp quiet), ih]
      rfl
  | name _ ih => exact ih _ next
  | value ends _ ih =>
      have number := Token.digitsAhead_digits (fun c => isDigit_of_mem_toString (n := next))
        (digitsAhead_tokensFrom ends (next + 1))
      rw [tokensFrom, List.cons_append, Token.placeholdersFrom, if_pos rfl, number,
        Token.placeholdersFrom_plain (quiet_words.mp (quiet_toString next)), ih,
        String.ofList_toList]
      rfl

theorem bound_eq_slotsFrom (ps : List Piece) (last : Option String) :
    bound ps = (slotsFrom last ps).map (·.2) := by
  induction ps generalizing last with
  | nil => rfl
  | cons p rest ih =>
      cases p with
      | words s | name s => exact ih _
      | value v => exact congrArg (v :: ·) (ih last)

/-- The placeholders count up from one, and there is one for each value. -/
theorem numbers_tokensFrom {ps : List Piece} (h : Spaced ps) :
    (Token.placeholders (tokensFrom 1 ps)).map (·.number) =
      (List.range' 1 (bound ps).length).map toString := by
  rw [Token.placeholders, placeholdersFrom_tokensFrom h, List.map_map, bound_eq_slotsFrom ps none,
    List.length_map, ← List.zipIdx_map_snd, List.map_map]
  rfl

theorem columns_tokensFrom {ps : List Piece} (h : Spaced ps) :
    (Token.placeholders (tokensFrom 1 ps)).map (·.column) = (slotsFrom none ps).map (·.1) := by
  have firsts := List.zipIdx_map_fst 1 (slotsFrom none ps)
  rw [Token.placeholders, placeholdersFrom_tokensFrom h, List.map_map]
  nth_rewrite 2 [← firsts]
  rw [List.map_map]
  rfl

def name? : Piece → Option String
  | name n => some n
  | words _ | value _ => none

theorem names_tokensFrom (ps : List Piece) (next : Nat) :
    Token.names (tokensFrom next ps) = ps.filterMap name? := by
  have silent (cs : List Char) (rest : List Token) :
      Token.names (cs.map Token.plain ++ rest) = Token.names rest := by
    induction cs with
    | nil => rfl
    | cons c cs ih => exact ih
  induction ps generalizing next with
  | nil => rfl
  | cons p rest ih =>
      cases p with
      | words s => exact (silent _ _).trans (ih next)
      | name n => exact congrArg (n :: ·) (ih next)
      | value v => exact (silent _ _).trans (ih (next + 1))

theorem filterMap_separated (separator : String) (items : List (List Piece)) :
    (separated separator items).filterMap name? = items.flatMap (List.filterMap name?) := by
  induction items with
  | nil => rfl
  | cons ps rest ih =>
      cases rest with
      | nil => exact (List.flatMap_singleton _ _).symm
      | cons next rest =>
          rw [separated_cons_cons, List.filterMap_append, List.flatMap_cons, ← ih]
          rfl

theorem filterMap_names (ns : List String) : (names ns).filterMap name? = ns := by
  rw [names, filterMap_separated, List.flatMap_map]
  exact List.flatMap_singleton' ns

theorem filterMap_values (vs : List Json) : (values vs).filterMap name? = [] := by
  rw [values, filterMap_separated, List.flatMap_map]
  exact List.flatMap_eq_nil_iff.mpr fun _ _ => rfl

/-- The last name of the pieces, or the one before them. -/
def lastName (last : Option String) : List Piece → Option String
  | [] => last
  | name n :: rest => lastName (some n) rest
  | words _ :: rest | value _ :: rest => lastName last rest

theorem slotsFrom_append (last : Option String) (ps qs : List Piece) :
    slotsFrom last (ps ++ qs) = slotsFrom last ps ++ slotsFrom (lastName last ps) qs := by
  induction ps generalizing last with
  | nil => rfl
  | cons p rest ih =>
      cases p with
      | words s => exact ih last
      | name n => exact ih (some n)
      | value v => exact congrArg ((last, v) :: ·) (ih last)

/-- The values of the pieces, each behind the column that it is for. -/
def Places (ps : List Piece) (slots : List (String × Json)) : Prop :=
  ∀ last, slotsFrom last ps = slots.map fun slot => (some slot.1, slot.2)

section Places

variable {ps qs : List Piece} {slots more : List (String × Json)}

theorem places_nil : Places [] [] := fun _ => rfl

theorem Places.append (hp : Places ps slots) (hq : Places qs more) :
    Places (ps ++ qs) (slots ++ more) := by
  intro last
  rw [slotsFrom_append, hp, hq, List.map_append]

theorem Places.words (h : Places ps slots) (s : String) : Places (.words s :: ps) slots := h

theorem Places.name (h : Places ps slots) (n : String) : Places (.name n :: ps) slots :=
  fun _ => h (some n)

theorem Places.append_words (hp : Places ps slots) (s : String) (hq : Places qs more) :
    Places (ps ++ .words s :: qs) (slots ++ more) :=
  hp.append (hq.words s)

theorem Places.append_unless (hp : Places ps slots) (s : String) (hq : Places qs more)
    (empty : Bool) (nothing : empty = true → more = []) :
    Places (ps ++ if empty then [] else .words s :: qs) (slots ++ more) := by
  cases empty with
  | false => exact hp.append_words s hq
  | true =>
      rw [nothing rfl]
      exact hp.append places_nil

theorem places_separated {α : Type} (separator : String) (items : List α) {f : α → List Piece}
    {g : α → List (String × Json)} (h : ∀ i, Places (f i) (g i)) :
    Places (separated separator (items.map f)) (items.flatMap g) := by
  induction items with
  | nil => exact places_nil
  | cons i rest ih =>
      cases rest with
      | nil =>
          rw [List.flatMap_singleton]
          exact h i
      | cons next rest => exact (h i).append_words separator ih

theorem places_names (ns : List String) : Places (names ns) [] := by
  have none := places_separated ", " ns (g := fun _ => []) fun n => places_nil.name n
  rwa [List.flatMap_eq_nil_iff.mpr fun _ _ => rfl] at none

theorem slotsFrom_values (last : Option String) (vs : List Json) :
    slotsFrom last (values vs) = vs.map (last, ·) := by
  unfold values
  induction vs with
  | nil => rfl
  | cons v rest ih =>
      cases rest with
      | nil => rfl
      | cons next rest => exact congrArg ((last, v) :: ·) ih

theorem places_list (column : String) (s t : String) (vs : List Json) :
    Places ([.name column, .words s] ++ values vs ++ [.words t]) (vs.map (column, ·)) := by
  intro last
  rw [List.append_assoc]
  change slotsFrom (some column) (values vs ++ [.words t]) = _
  rw [slotsFrom_append, slotsFrom_values, List.map_map]
  exact List.append_nil _

end Places
end Piece

open Piece

/-- The values that a condition compares its column with. -/
def Condition.slots (c : Condition) : List (String × Json) :=
  c.column?.toList.flatMap fun column => c.operands.map (column, ·)

theorem Condition.places_pieces (c : Condition) : Places c.pieces c.slots := by
  cases c with
  | isIn c vs | notIn c vs =>
      rw [slots, column?, Option.toList_some, List.flatMap_singleton]
      exact places_list c _ ")" vs
  | never | compare _ _ _ | contains _ _ | containsNoCase _ _ | isNull _ | isNotNull _ =>
      exact fun _ => rfl

theorem Condition.spaced_pieces (c : Condition) : Spaced c.pieces := by
  cases c with
  | never => exact .words (by decide +kernel) .nil
  | isIn c vs | notIn c vs =>
      exact spaced_list c (by decide +kernel) (by decide +kernel) (by decide +kernel) vs
  | compare c how v =>
      refine .name (.words ?_ (spaced_value v))
      cases how <;> decide +kernel
  | contains c v | containsNoCase c v =>
      refine .words (by decide +kernel) (.name (.words (by decide +kernel) ?_))
      exact (spaced_value v).append_words (by decide +kernel) (by decide +kernel) .nil
  | isNull c | isNotNull c => exact .name (.words (by decide +kernel) .nil)

theorem Piece.quiet_append {s t : String} (hs : (words s).quiet = true)
    (ht : (words t).quiet = true) : (words (s ++ t)).quiet = true := by
  rw [quiet_words, String.toList_append, List.mem_append]
  exact not_or.mpr ⟨quiet_words.mp hs, quiet_words.mp ht⟩

theorem Piece.ends_append {s : String} (hs : (words s).ends = true) (t : String) :
    (words (s ++ t)).ends = true := by
  have first : s.toList.head?.any (!·.isDigit) = true := hs
  rw [ends, String.toList_append]
  cases letters : s.toList with
  | nil =>
      rw [letters] at first
      cases first
  | cons c cs =>
      rw [letters] at first
      exact first

namespace Select

/-- A page is said in words, if it is. -/
theorem pagePieces_spaced (limit offset : Option Nat) :
    Spaced (pagePieces limit offset) ∧ ∀ q ∈ (pagePieces limit offset).head?, q.ends = true := by
  have alone {s : String} (quiet : (words s).quiet = true) (ends : (words s).ends = true) :
      Spaced [words s] ∧ ∀ q ∈ [words s].head?, q.ends = true := by
    refine ⟨.words quiet .nil, ?_⟩
    rintro q ⟨⟩
    exact ends
  have limited (n : Nat) : (words (" LIMIT " ++ toString n)).quiet = true :=
    quiet_append (by decide +kernel) (quiet_toString n)
  have shifted {s : String} (quiet : (words s).quiet = true) (m : Nat) :
      (words (s ++ " OFFSET " ++ toString m)).quiet = true :=
    quiet_append (quiet_append quiet (by decide +kernel)) (quiet_toString m)
  have begins : (words " LIMIT ").ends = true := by decide +kernel
  unfold pagePieces
  split
  · exact alone (limited _) (ends_append begins _)
  · refine alone (shifted (limited _) _) ?_
    exact ends_append (ends_append (ends_append begins _) _) _
  · exact ⟨.nil, nofun⟩
  · exact alone (shifted (s := " LIMIT -1") (by decide +kernel) _)
      (ends_append (s := " LIMIT -1 OFFSET ") (by decide +kernel) _)

theorem spaced_pieces (s : Select) : Spaced s.pieces := by
  have columns : Spaced (if s.columns.isEmpty then [words "SELECT 1"]
      else words "SELECT " :: names s.columns) := by
    split
    · exact .words (by decide +kernel) .nil
    · exact .words (by decide +kernel) (spaced_names _)
  have conditions : Spaced (separated " AND " (s.conditions.map Condition.pieces)) := by
    apply spaced_separated (by decide +kernel) (by decide +kernel)
    rw [List.forall_mem_map]
    exact fun c _ => c.spaced_pieces
  have order : Spaced (orderPieces s.order) := by
    apply spaced_separated (by decide +kernel) (by decide +kernel)
    rw [List.forall_mem_map]
    exact fun k _ => .name (.words (by cases k.descending <;> decide +kernel) .nil)
  have selection := columns.append_words (s := " FROM ") (by decide +kernel) (by decide +kernel)
    (.name (n := s.table) .nil)
  have clauses := (selection.append_unless (s := " WHERE ") (by decide +kernel)
    (by decide +kernel) conditions s.conditions.isEmpty).append_unless (s := " ORDER BY ")
    (by decide +kernel) (by decide +kernel) order s.order.isEmpty
  obtain ⟨page, apart⟩ := pagePieces_spaced s.limit s.offset
  exact clauses.append page apart

/-- The values are those of the conditions. -/
theorem places_pieces (s : Select) : Places s.pieces (s.conditions.flatMap Condition.slots) := by
  have columns : Places (if s.columns.isEmpty then [words "SELECT 1"]
      else words "SELECT " :: names s.columns) [] := by
    split
    · exact places_nil.words _
    · exact (places_names _).words _
  have conditions := places_separated " AND " s.conditions Condition.places_pieces
  have order : Places (orderPieces s.order) [] := by
    have none := places_separated ", " s.order (g := fun _ => [])
      fun k => (places_nil.words (if k.descending then " DESC" else " ASC")).name k.field
    rwa [List.flatMap_eq_nil_iff.mpr fun _ _ => rfl] at none
  have page : Places (pagePieces s.limit s.offset) [] := by
    unfold pagePieces
    split <;> exact fun _ => rfl
  have selection := columns.append_words " FROM " (places_nil.name s.table)
  have filtered := selection.append_unless " WHERE " conditions s.conditions.isEmpty
    fun empty => by rw [List.isEmpty_iff.mp empty, List.flatMap_nil]
  have sorted := filtered.append_unless " ORDER BY " order s.order.isEmpty fun _ => rfl
  have clauses := sorted.append page
  simp only [List.append_nil, List.nil_append] at clauses
  exact clauses

end Select

namespace Statement

/-- The values of a statement, each with the column that it is for. -/
def slots : Statement → List (String × Json)
  | createTable _ _ => []
  | select s => s.conditions.flatMap Condition.slots
  | insert _ values _ => values
  | update _ values keyColumn key _ => values ++ [(keyColumn, key)]
  | delete _ keyColumn key => [(keyColumn, key)]

theorem spaced_keyPieces (column : String) (key : Json) : Spaced (keyPieces column key) :=
  .words (by decide +kernel) (.name (.words (by decide +kernel) (spaced_value key)))

theorem spaced_assignmentPieces (values : List (String × Json)) :
    Spaced (assignmentPieces values) := by
  apply spaced_separated (by decide +kernel) (by decide +kernel)
  rw [List.forall_mem_map]
  exact fun v _ => .name (.words (by decide +kernel) (spaced_value v.2))

theorem spaced_columnPieces (columns : List ColumnDef) : Spaced (columnPieces columns) := by
  apply spaced_separated (by decide +kernel) (by decide +kernel)
  rw [List.forall_mem_map]
  intro c _
  refine .name (.words ?_ .nil)
  cases c.type <;> cases c.isPrimary <;> decide +kernel

theorem spaced_pieces (s : Statement) : Spaced s.pieces := by
  cases s with
  | createTable table columns =>
      refine .words (by decide +kernel) (.name (.words (by decide +kernel) ?_))
      exact (spaced_columnPieces columns).append_words (by decide +kernel) (by decide +kernel) .nil
  | select s => exact s.spaced_pieces
  | insert table values returning =>
      cases values with
      | nil =>
          exact .words (by decide +kernel)
            (.name (.words (by decide +kernel) (spaced_names returning)))
      | cons v rest =>
          simp only [pieces, List.append_assoc, List.cons_append, List.nil_append]
          refine .words (by decide +kernel) (.name (.words (by decide +kernel) ?_))
          refine (spaced_names _).append_words (by decide +kernel) (by decide +kernel) ?_
          exact (spaced_values _).append_words (by decide +kernel) (by decide +kernel)
            (spaced_names returning)
  | update table values keyColumn key returning =>
      cases values with
      | nil =>
          simp only [pieces, List.append_assoc, List.cons_append, List.nil_append]
          refine .words (by decide +kernel) ?_
          refine (spaced_names returning).append_words (by decide +kernel) (by decide +kernel) ?_
          exact .name (spaced_keyPieces keyColumn key)
      | cons v rest =>
          simp only [pieces, List.append_assoc, List.cons_append, List.nil_append]
          refine .words (by decide +kernel) (.name (.words (by decide +kernel) ?_))
          have keyed := (spaced_keyPieces keyColumn key).append_words (s := " RETURNING ")
            (by decide +kernel) (by decide +kernel) (spaced_names returning)
          refine (spaced_assignmentPieces _).append keyed ?_
          rintro q ⟨⟩
          decide +kernel
  | delete table keyColumn key =>
      exact .words (by decide +kernel) (.name (spaced_keyPieces keyColumn key))

theorem places_keyPieces (column : String) (key : Json) :
    Places (keyPieces column key) [(column, key)] := fun _ => rfl

theorem places_assignmentPieces (values : List (String × Json)) :
    Places (assignmentPieces values) values := by
  have each := places_separated ", " values (g := fun v => [v])
    (f := fun v => [name v.1, words " = ", value v.2]) fun v _ => rfl
  rwa [List.flatMap_singleton'] at each

/-- The rows that are inserted have their columns named before the first value. -/
def isInsert : Statement → Bool
  | insert _ _ _ => true
  | createTable _ _ | select _ | update _ _ _ _ _ | delete _ _ _ => false

theorem places_pieces {s : Statement} (other : s.isInsert = false) : Places s.pieces s.slots := by
  cases s with
  | createTable table columns =>
      have declared := places_separated ",\n  " columns (g := fun _ => [])
        fun c => (places_nil.words (" " ++ c.type.name ++ if c.isPrimary then " PRIMARY KEY" else
          "")).name c.name
      rw [List.flatMap_eq_nil_iff.mpr fun _ _ => rfl] at declared
      exact ((declared.append_words _ places_nil).words " (\n  ").name table
  | select s => exact s.places_pieces
  | insert table values returning => cases other
  | update table values keyColumn key returning =>
      cases values with
      | nil =>
          have asked := (places_names returning).append_words " FROM "
            ((places_keyPieces keyColumn key).name table)
          simpa [pieces, slots] using asked.words "SELECT "
      | cons v rest =>
          have set := (places_assignmentPieces (v :: rest)).append (places_keyPieces keyColumn key)
          have returned := set.append_words " RETURNING " (places_names returning)
          rw [List.append_nil] at returned
          simpa [pieces, slots] using ((returned.words " SET ").name table).words "UPDATE "
  | delete table keyColumn key => exact fun _ => rfl

theorem bound_pieces (s : Statement) : Piece.bound s.pieces = s.slots.map (·.2) := by
  cases s with
  | insert table values returning =>
      cases values with
      | nil => exact bound_names returning
      | cons v rest =>
          simp only [pieces, bound_append, bound_names, bound_values]
          exact (List.append_nil _).trans (List.append_nil _)
  | createTable _ _ | select _ | update _ _ _ _ _ | delete _ _ _ =>
      rw [bound_eq_slotsFrom _ none, places_pieces rfl, List.map_map]
      rfl

/-- The columns that the placeholders are for: of a row that is inserted those that are named
behind the table, else the last name before each. -/
def ReadsColumns : Statement → List Token → List String → Prop
  | insert table _ returning, tokens, columns =>
      Token.names tokens = table :: (columns ++ returning)
  | createTable _ _, tokens, columns | select _, tokens, columns
  | update _ _ _ _ _, tokens, columns | delete _ _ _, tokens, columns =>
      (Token.placeholders tokens).map (·.column) = columns.map some

/-- The text has as many placeholders as there are values to bind. They count up from one, and what
is bound to each is the value of its column. -/
structure LinesUp (s : Statement) (slots : List (String × Json)) : Prop where
  bound : s.bound = slots.map fun slot => Bound.ofJson slot.2
  placeholders : ∃ tokens, Token.ofText? s.text = some tokens ∧
    (Token.placeholders tokens).map (·.number) = (List.range' 1 s.bound.length).map toString ∧
    s.ReadsColumns tokens (slots.map (·.1))

theorem readsColumns (s : Statement) :
    s.ReadsColumns (tokensFrom 1 s.pieces) (s.slots.map (·.1)) := by
  have placed {s : Statement} (other : s.isInsert = false) :
      (Token.placeholders (tokensFrom 1 s.pieces)).map (·.column) =
        (s.slots.map (·.1)).map some := by
    rw [columns_tokensFrom s.spaced_pieces, places_pieces other, List.map_map, List.map_map]
    rfl
  cases s with
  | insert table values returning =>
      rw [ReadsColumns, names_tokensFrom]
      cases values with
      | nil => exact congrArg (table :: ·) (filterMap_names returning)
      | cons v rest =>
          simp only [pieces, List.filterMap_append, filterMap_names, filterMap_values]
          simp [List.filterMap_cons, name?, slots]
  | createTable _ _ | select _ | update _ _ _ _ _ | delete _ _ _ => exact placed rfl

/-- Each value of a statement is bound where its placeholder stands. -/
theorem linesUp (s : Statement) : s.LinesUp s.slots := by
  refine ⟨?_, _, s.ofText?_text, ?_, s.readsColumns⟩
  · rw [bound, bound_pieces, List.map_map]
    rfl
  · rw [bound, List.length_map]
    exact numbers_tokensFrom s.spaced_pieces

/-- A question mark in a name opens no placeholder. -/
example : (Token.ofText? "\"?1\" IN (?1, ?2) AND \"name\" = ?3").map Token.placeholders =
    some [⟨"1", some "?1"⟩, ⟨"2", some "?1"⟩, ⟨"3", some "name"⟩] := by decide +kernel

end Statement
end Sql
end EntityGraph
