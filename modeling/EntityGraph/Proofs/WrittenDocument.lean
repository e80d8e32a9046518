import EntityGraph.Proofs.Scanning

/-!
Schema documents are read back as they were written. Each form of the grammar reads what is written
for it, so a document without added text is read as the types it stands for, provided that every
name in it is one; and where a document is read, every name in it is one.
-/

namespace EntityGraph

open Scan

/-- No type in it is marked twice. -/
def TypeRef.MarkedOnce : TypeRef → Prop
  | .named _ => True
  | .list item => item.MarkedOnce
  | .nonNull type => type.isNonNull = false ∧ type.MarkedOnce

namespace Scan

/-- A type up to the mark that may follow it. -/
def baseWithin (fuel : Nat) : Scan TypeRef :=
  (TypeRef.named <$> nameHere) <|> do
    exactly ['[']
    let item ← typeWithin fuel
    exactly [']']
    return TypeRef.list item

/-- The type is read within `fuel`, up to a mark when it has none itself, and with what follows it
neither a mark nor more of a name. -/
structure TypeReads (t : TypeRef) (fuel : Nat) : Prop where
  base : t.isNonNull = false → ∀ rest, Unnamed rest →
    baseWithin fuel (t.text.toList ++ rest) = some (t, rest)
  whole : ∀ rest, Unnamed rest → rest.head? ≠ some '!' →
    typeWithin (fuel + 1) (t.text.toList ++ rest) = some (t, rest)

variable {t : TypeRef} {fuel : Nat} {rest : List Char}

theorem TypeReads.of_base
    (base : ∀ rest, Unnamed rest → baseWithin fuel (t.text.toList ++ rest) = some (t, rest)) :
    TypeReads t fuel := by
  refine ⟨fun _ => base, fun rest ends unmarked => ?_⟩
  have stop : exactly ['!'] rest = none := by
    cases rest with
    | nil => rfl
    | cons c cs =>
        have other : '!' ≠ c := fun same => unmarked (by rw [same]; rfl)
        simp [exactly, List.isPrefixOf, other]
  exact (bind_of (base rest ends)).trans (bind_of (maybe_of_none stop))

/-- By induction on the type. A type without a mark is read up to its end and no mark follows it;
one with a mark is read up to the mark, which would be left over if the type had another. -/
theorem typeReads (once : t.MarkedOnce) (valid : isName t.base = true)
    (enough : t.text.toList.length ≤ fuel) : TypeReads t fuel := by
  induction t generalizing fuel with
  | named n => exact .of_base fun rest ends => orElse_of (map_of (nameHere_of valid ends))
  | list item ih =>
      refine .of_base fun rest _ => ?_
      have shape : (TypeRef.list item).text.toList ++ rest =
          '[' :: (item.text.toList ++ ']' :: rest) := by
        simp [TypeRef.text]
      simp only [TypeRef.text, String.toList_append, List.length_append] at enough
      have marks : "[".toList.length = 1 ∧ "]".toList.length = 1 := ⟨rfl, rfl⟩
      obtain ⟨left, rfl⟩ : ∃ left, fuel = left + 1 := ⟨fuel - 1, by omega⟩
      have item_reads : TypeReads item left := ih once valid (by omega)
      have inner := item_reads.whole (']' :: rest) (by rintro c ⟨⟩; rfl) (by rintro ⟨⟩)
      rw [shape, baseWithin, orElse_of_none (map_of_none rfl)]
      exact (bind_of rfl).trans ((bind_of inner).trans (bind_of rfl))
  | nonNull t ih =>
      refine ⟨fun unmarked => Bool.noConfusion unmarked, fun rest _ _ => ?_⟩
      have shape : (TypeRef.nonNull t).text.toList ++ rest = t.text.toList ++ '!' :: rest := by
        simp [TypeRef.text]
      simp only [TypeRef.text, String.toList_append, List.length_append] at enough
      have base_reads : TypeReads t fuel := ih once.2 valid (by omega)
      have inner := base_reads.base once.1 ('!' :: rest) (by rintro c ⟨⟩; rfl)
      rw [shape]
      exact (bind_of inner).trans (bind_of (maybe_of rfl))

/-- A type begins with a bracket or a name. -/
theorem text_cons (valid : isName t.base = true) :
    ∃ c cs, t.text.toList = c :: cs ∧ isIgnored c = false ∧ c ≠ '#' := by
  induction t with
  | named n =>
      obtain ⟨c, cs, letters, start, _⟩ := isName_cons valid
      exact ⟨c, cs, letters, visible_of_isNameChar (isNameChar_of_isNameStart start)⟩
  | list item => exact ⟨'[', (item.text ++ "]").toList, by simp [TypeRef.text], rfl, by decide⟩
  | nonNull t ih =>
      obtain ⟨c, cs, letters, shown⟩ := ih valid
      exact ⟨c, cs ++ ['!'], by simp [TypeRef.text, letters], shown⟩

theorem type_reads (once : t.MarkedOnce) (valid : isName t.base = true) :
    Reads type t.text t fun rest => Unnamed rest ∧ rest.head? ≠ some '!' := by
  intro gap rest ignored follows
  have ahead : dropIgnored false (gap ++ (t.text.toList ++ rest)) = t.text.toList ++ rest := by
    obtain ⟨c, cs, letters, visible, uncommented⟩ := text_cons valid
    rw [dropIgnored_append ignored, letters, List.cons_append,
      dropIgnored_of_visible visible uncommented]
  change nested typeWithin (dropIgnored false _) = _
  rw [ahead]
  exact (typeReads once valid (by simp)).whole rest follows.1 follows.2

end Scan

namespace Schema

/-! What is written, as what is read. -/

def Parameter.asInput (p : Parameter) : Input := ⟨p.name, p.type, none⟩

def FieldLine.asField (f : FieldLine) : Field :=
  ⟨f.name, f.arguments.map Parameter.asInput, f.type⟩

def Block.definition? : Block → Option Definition
  | .object name fields _ => some (.object name (fields.map FieldLine.asField))
  | .input name fields => some (.input name (fields.map Parameter.asInput))
  | .verbatim _ => none

/-- The names that stand in the text. -/
def Parameter.names (p : Parameter) : List String := [p.name, p.type.base]

def FieldLine.names (f : FieldLine) : List String :=
  f.name :: f.type.base :: f.arguments.flatMap Parameter.names

def Block.names : Block → List String
  | .object name fields _ => name :: fields.flatMap FieldLine.names
  | .input name fields => name :: fields.flatMap Parameter.names
  | .verbatim _ => []

variable {p : Parameter} {f : FieldLine} {rest : List Char} {P : String → Prop}

theorem Parameter.forall_names : (∀ n ∈ p.names, P n) ↔ P p.name ∧ P p.type.base := by
  simp [names]

theorem FieldLine.forall_names :
    (∀ n ∈ f.names, P n) ↔
      P f.name ∧ P f.type.base ∧ ∀ p ∈ f.arguments, ∀ n ∈ p.names, P n := by
  rw [names, List.forall_mem_cons, List.forall_mem_cons, List.forall_mem_flatMap]

theorem Block.forall_names_object {name : String} {fields : List FieldLine}
    {added : Option String} :
    (∀ n ∈ (Block.object name fields added).names, P n) ↔
      P name ∧ ∀ f ∈ fields, ∀ n ∈ f.names, P n := by
  rw [names, List.forall_mem_cons, List.forall_mem_flatMap]

theorem Block.forall_names_input {name : String} {fields : List Parameter} :
    (∀ n ∈ (Block.input name fields).names, P n) ↔
      P name ∧ ∀ p ∈ fields, ∀ n ∈ p.names, P n := by
  rw [names, List.forall_mem_cons, List.forall_mem_flatMap]

theorem Parameter.leads (valid : ∀ n ∈ p.names, isName n = true) : Leads p.text :=
  ⟨p.name, ": " ++ p.type.text, (forall_names.mp valid).1, String.append_assoc⟩

/-- The arguments of a field with the brackets around them, which are left out with them. -/
def argumentsText (ps : List Parameter) : String :=
  if ps.isEmpty then "" else "(" ++ Text.join ", " (ps.map Parameter.text) ++ ")"

theorem FieldLine.text_eq (f : FieldLine) :
    f.text = f.name ++ (argumentsText f.arguments ++ (": " ++ f.type.text)) := by
  simp only [FieldLine.text, argumentsText, String.append_assoc]

theorem FieldLine.leads (valid : ∀ n ∈ f.names, isName n = true) : Leads f.text :=
  ⟨f.name, _, (forall_names.mp valid).1, f.text_eq⟩

theorem input_reads (once : p.type.MarkedOnce) (valid : ∀ n ∈ p.names, isName n = true) :
    Reads input p.text p.asInput Apart := by
  intro gap rest ignored apart
  obtain ⟨named, typed⟩ := Parameter.forall_names.mp valid
  have shape : gap ++ (p.text.toList ++ rest) =
      gap ++ (p.name.toList ++ ':' :: ' ' :: (p.type.text.toList ++ rest)) := by
    simp [Parameter.text]
  rw [shape]
  -- No description; then the name, the colon and the type; then no default and no directives.
  refine (bind_of (maybe_of_none (string_of_isName named ignored _))).trans ?_
  refine (bind_of (name_reads named gap _ ignored (by rintro c ⟨⟩; rfl))).trans ?_
  refine (bind_of rfl).trans ?_
  refine (bind_of (type_reads once typed [' '] rest rfl ⟨apart.unnamed, apart.unmarked⟩)).trans ?_
  have undefaulted := word_of_front (w := "=") apart.undefaulted (by decide)
  refine (bind_of (maybe_of_none (bind_of_none undefaulted))).trans ?_
  exact bind_of (directives_of_front apart.undirected)

theorem fieldArguments_reads {ps : List Parameter} (inhabited : ps ≠ [])
    (once : ∀ p ∈ ps, p.type.MarkedOnce)
    (valid : ∀ p ∈ ps, ∀ n ∈ p.names, isName n = true) (rest : List Char) :
    fieldArguments ('(' :: ((Text.join ", " (ps.map Parameter.text)).toList ++ ')' :: rest)) =
      some (ps.map Parameter.asInput, rest) := by
  have leads : ∀ text ∈ ps.map Parameter.text, Leads text :=
    List.forall_mem_map.mpr fun p hp => Parameter.leads (valid p hp)
  have ends : Apart (')' :: rest) :=
    ⟨by rintro c ⟨⟩; rfl, by rintro ⟨⟩, by rintro ⟨⟩, by rintro ⟨⟩⟩
  have separates : Separates input ", " (')' :: rest) Apart (ps.map Parameter.text) :=
    separates_of_leads leads rfl (by decide) ends rfl
  have inputs := many1_join inhabited separates
    (fun p hp => input_reads (once p hp) (valid p hp)) List.all_nil
  exact (bind_of rfl).trans ((bind_of inputs).trans (bind_of rfl))

theorem maybe_fieldArguments {ps : List Parameter} (once : ∀ p ∈ ps, p.type.MarkedOnce)
    (valid : ∀ p ∈ ps, ∀ n ∈ p.names, isName n = true) (rest : List Char) :
    ∃ read?, read?.getD [] = ps.map Parameter.asInput ∧
      maybe fieldArguments ((argumentsText ps).toList ++ ':' :: rest) =
        some (read?, ':' :: rest) := by
  cases ps with
  | nil => exact ⟨none, rfl, rfl⟩
  | cons p ps =>
      refine ⟨some _, rfl, maybe_of ?_⟩
      have read := fieldArguments_reads (List.cons_ne_nil p ps) once valid (':' :: rest)
      simpa [argumentsText] using read

theorem unnamed_argumentsText (ps : List Parameter) (rest : List Char) :
    Unnamed ((argumentsText ps).toList ++ ':' :: rest) := by
  cases ps with
  | nil => rintro c ⟨⟩; rfl
  | cons p ps =>
      let items := Text.join ", " ((p :: ps).map Parameter.text)
      have bracket : (argumentsText (p :: ps)).toList ++ ':' :: rest =
          '(' :: (items.toList ++ ')' :: ':' :: rest) := by
        simp [argumentsText, items]
      rw [bracket]
      rintro c ⟨⟩
      rfl

theorem field_reads (once : f.type.MarkedOnce) (arguments : ∀ p ∈ f.arguments, p.type.MarkedOnce)
    (valid : ∀ n ∈ f.names, isName n = true) : Reads field f.text f.asField Apart := by
  intro gap rest ignored apart
  obtain ⟨named, typed, inputs⟩ := FieldLine.forall_names.mp valid
  have shape : f.text.toList ++ rest =
      f.name.toList ++
        ((argumentsText f.arguments).toList ++ ':' :: ' ' :: (f.type.text.toList ++ rest)) := by
    simp [FieldLine.text_eq]
  obtain ⟨read?, given, read⟩ :=
    maybe_fieldArguments arguments inputs (' ' :: (f.type.text.toList ++ rest))
  rw [shape]
  refine (bind_of (maybe_of_none (string_of_isName named ignored _))).trans ?_
  refine (bind_of (name_reads named gap _ ignored (unnamed_argumentsText _ _))).trans ?_
  refine (bind_of read).trans ?_
  refine (bind_of rfl).trans ?_
  refine (bind_of (type_reads once typed [' '] rest rfl ⟨apart.unnamed, apart.unmarked⟩)).trans ?_
  refine (bind_of (directives_of_front apart.undirected)).trans ?_
  rw [given]
  rfl

/-! Bodies and blocks. -/

theorem linesText_cons (first : String) (lines : List String) :
    linesText (first :: lines) = "  " ++ Text.join "\n  " (first :: lines) ++ "\n" := by
  induction lines generalizing first with
  | nil => simp [linesText, line, Text.join]
  | cons next lines ih =>
      rw [linesText, ih]
      simp [Text.join, line, ← String.toList_inj]

section
variable {α β : Type} {items : List β} {text : β → String} {value : β → α}

/-- The lines between braces are read as the items they are written for. -/
theorem braced_reads {p : Scan α} (inhabited : items ≠ [])
    (leads : ∀ x ∈ items, Leads (text x))
    (reads : ∀ x ∈ items, Reads p (text x) (value x) Apart)
    (stops : ∀ rest, p ('\n' :: '\x7d' :: rest) = none) (rest : List Char) :
    braced p (' ' :: '\x7b' :: '\n' :: ((linesText (items.map text)).toList ++ '\x7d' :: rest)) =
      some (items.map value, rest) := by
  have ends : Apart ('\n' :: '\x7d' :: rest) :=
    ⟨by rintro c ⟨⟩; rfl, by rintro ⟨⟩, by rintro ⟨⟩, by rintro ⟨⟩⟩
  have separates : Separates p "\n  " ('\n' :: '\x7d' :: rest) Apart (items.map text) :=
    separates_of_leads (List.forall_mem_map.mpr leads) rfl (by decide) ends (stops rest)
  have read := many1_join inhabited separates reads (rfl : ['\n', ' ', ' '].all isIgnored = true)
  have shape : '\n' :: ((linesText (items.map text)).toList ++ '\x7d' :: rest) =
      ['\n', ' ', ' '] ++
        ((Text.join "\n  " (items.map text)).toList ++ '\n' :: '\x7d' :: rest) := by
    cases items with
    | nil => exact absurd rfl inhabited
    | cons x items => simp [linesText_cons]
  have opened : ∀ s, word "\x7b" (' ' :: '\x7b' :: s) = some ((), s) := fun _ => rfl
  refine (bind_of (opened _)).trans ?_
  rw [shape]
  exact (bind_of read).trans (bind_of rfl)

/-- The text of a type from its keyword on, with what stands behind the opening brace. -/
def header (keyword name : String) (inside : List Char) : List Char :=
  keyword.toList ++ ' ' :: (name.toList ++ ' ' :: '\x7b' :: inside)

theorem bodied_reads {keyword name : String} (interfaces : Bool) {body : Scan (List α)}
    {as : List α} {inside : List Char} (worded : isName keyword = true)
    (named : isName name = true) (read : body (' ' :: '\x7b' :: inside) = some (as, rest)) :
    bodied keyword interfaces body (header keyword name inside) = some ((name, as), rest) := by
  have opened : opening keyword (header keyword name inside) =
      some ((), ' ' :: (name.toList ++ ' ' :: '\x7b' :: inside)) := by
    refine (bind_of (maybe_of_none (string_of_isName worded List.all_nil _))).trans ?_
    refine (word_of_isName worded List.all_nil _ keyword).trans ?_
    simp [exactly]
  refine orElse_of ((bind_of opened).trans ?_)
  refine (bind_of (name_reads named [' '] _ rfl (by rintro c ⟨⟩; rfl))).trans ?_
  -- The brace is next, so there are no interfaces and no directives.
  cases interfaces with
  | false => exact (bind_of rfl).trans (bind_of (maybe_of read))
  | true => exact (bind_of rfl).trans ((bind_of rfl).trans (bind_of (maybe_of read)))

end

/-- No type in the block is marked twice, it has a field, and nothing is added to it. -/
def Block.Bare : Block → Prop
  | .object _ fields added =>
      fields ≠ [] ∧ added = none ∧
        ∀ f ∈ fields, f.type.MarkedOnce ∧ ∀ p ∈ f.arguments, p.type.MarkedOnce
  | .input _ fields => fields ≠ [] ∧ ∀ p ∈ fields, p.type.MarkedOnce
  | .verbatim _ => False

theorem objectType_reads {name : String} {fields : List FieldLine}
    (bare : (Block.object name fields none).Bare)
    (valid : ∀ n ∈ (Block.object name fields none).names, isName n = true) (rest : List Char) :
    documentItem ((Block.object name fields none).text.toList ++ rest) =
      some (some (.object name (fields.map FieldLine.asField)), rest) := by
  obtain ⟨inhabited, _, once⟩ := bare
  obtain ⟨named, inside⟩ := Block.forall_names_object.mp valid
  have body := braced_reads inhabited (fun f hf => FieldLine.leads (inside f hf))
    (fun f hf => field_reads (once f hf).1 (once f hf).2 (inside f hf)) (fun _ => rfl) rest
  have shape : (Block.object name fields none).text.toList ++ rest =
      header "type" name
        ('\n' :: ((linesText (fields.map FieldLine.text)).toList ++ '\x7d' :: rest)) := by
    simp [Block.text, bodyText, header]
  have read := bodied_reads true (show isName "type" = true by decide) named body
  rw [shape]
  refine (orElse_of_none rfl).trans (orElse_of (map_of ?_))
  exact (orElse_of_none rfl).trans (orElse_of (map_of read))

theorem inputType_reads {name : String} {fields : List Parameter}
    (bare : (Block.input name fields).Bare)
    (valid : ∀ n ∈ (Block.input name fields).names, isName n = true) (rest : List Char) :
    documentItem ((Block.input name fields).text.toList ++ rest) =
      some (some (.input name (fields.map Parameter.asInput)), rest) := by
  obtain ⟨inhabited, once⟩ := bare
  obtain ⟨named, inside⟩ := Block.forall_names_input.mp valid
  have body := braced_reads inhabited (fun p hp => Parameter.leads (inside p hp))
    (fun p hp => input_reads (once p hp) (inside p hp)) (fun _ => rfl) rest
  have shape : (Block.input name fields).text.toList ++ rest =
      header "input" name
        ('\n' :: ((linesText (fields.map Parameter.text)).toList ++ '\x7d' :: rest)) := by
    simp [Block.text, bodyText, header]
  have read := bodied_reads false (show isName "input" = true by decide) named body
  rw [shape]
  -- The types whose keywords are tried before this one fail at its first letters.
  refine (orElse_of_none rfl).trans (orElse_of (map_of ?_))
  refine (orElse_of_none rfl).trans ((orElse_of_none rfl).trans ((orElse_of_none rfl).trans ?_))
  exact (orElse_of_none rfl).trans ((orElse_of_none rfl).trans (map_of read))

/-! What is ignored before an item makes no difference to it. The scans of a document look for a
description first and give back all of the text where there is none. -/

section
variable {α : Type} {gap s : List Char} (ignored : gap.all isIgnored = true)
  (undescribed : string s = none)
include ignored

theorem extending_append (keyword : String) :
    extending keyword (gap ++ s) = extending keyword s :=
  bind_congr_of (word_append ignored s "extend")

include undescribed

theorem opening_append (keyword : String) : opening keyword (gap ++ s) = opening keyword s := by
  have before : opening keyword (gap ++ s) = word keyword (gap ++ s) :=
    bind_of (maybe_of_none ((string_append ignored s).trans undescribed))
  have here : opening keyword s = word keyword s := bind_of (maybe_of_none undescribed)
  rw [before, here, word_append ignored]

theorem bodied_append (keyword : String) (interfaces : Bool) (body : Scan (List α)) :
    bodied keyword interfaces body (gap ++ s) = bodied keyword interfaces body s :=
  orElse_congr (bind_congr_of (opening_append ignored undescribed keyword))
    (bind_congr_of (extending_append ignored keyword))

theorem typeDefinition_append : typeDefinition (gap ++ s) = typeDefinition s := by
  refine orElse_congr (map_congr_of ?_) ?_
  · exact orElse_congr (bind_congr_of (opening_append ignored undescribed _))
      (bind_congr_of (extending_append ignored _))
  · refine orElse_congr (map_congr_of (bodied_append ignored undescribed _ _ _)) ?_
    refine orElse_congr (map_congr_of (bodied_append ignored undescribed _ _ _)) ?_
    refine orElse_congr (map_congr_of (bodied_append ignored undescribed _ _ _)) ?_
    refine orElse_congr (map_congr_of (bodied_append ignored undescribed _ _ _)) ?_
    exact map_congr_of (bodied_append ignored undescribed _ _ _)

theorem documentItem_append : documentItem (gap ++ s) = documentItem s := by
  refine orElse_congr (map_congr_of ?_) (orElse_congr (map_congr_of ?_) (map_congr_of ?_))
  · exact orElse_congr (bind_congr_of (word_append ignored s _))
      (bind_congr_of (extending_append ignored _))
  · exact typeDefinition_append ignored undescribed
  · exact bind_congr_of (opening_append ignored undescribed _)

end

/-! Documents. -/

variable {block : Block} {blocks : List Block}

theorem Block.leads (bare : block.Bare) : Leads block.text := by
  have keyword : ∀ word name lines added, isName word = true →
      Leads (bodyText word name lines added) := by
    intro word name lines added valid
    simp only [bodyText, String.append_assoc]
    exact ⟨word, _, valid, rfl⟩
  cases block with
  | object name fields added => exact keyword "type" name _ added (by decide)
  | input name fields => exact keyword "input" name _ none (by decide)
  | verbatim text => exact bare.elim

theorem block_reads (bare : block.Bare) (valid : ∀ n ∈ block.names, isName n = true) :
    Reads documentItem block.text block.definition? fun _ => True := by
  intro gap rest ignored _
  obtain ⟨n, more, worded, made⟩ := Block.leads bare
  have undescribed : string (block.text.toList ++ rest) = none := by
    rw [made, String.toList_append, List.append_assoc]
    exact string_of_isName worded List.all_nil _
  rw [documentItem_append ignored undescribed]
  cases block with
  | object name fields added =>
      obtain rfl := bare.2.1
      exact objectType_reads bare valid rest
  | input name fields => exact inputType_reads bare valid rest
  | verbatim text => exact bare.elim

/-- A document of valid names is read as it was written. -/
theorem readDocument?_of_names (inhabited : blocks ≠ []) (bare : ∀ block ∈ blocks, block.Bare)
    (valid : ∀ block ∈ blocks, ∀ n ∈ block.names, isName n = true) :
    readDocument? (documentText blocks) = some (blocks.filterMap Block.definition?) := by
  have written : ∀ text ∈ blocks.map Block.text, text ≠ "" :=
    List.forall_mem_map.mpr fun block mem => (Block.leads (bare block mem)).ne_empty
  have separates :
      Separates documentItem "\n\n" ['\n'] (fun _ => True) (blocks.map Block.text) :=
    ⟨rfl, fun _ _ _ => trivial, written, trivial, rfl⟩
  have read := many1_join inhabited separates
    (fun block mem => block_reads (bare block mem) (valid block mem)) List.all_nil
  have text : (documentText blocks).toList =
      [] ++ ((Text.join "\n\n" (blocks.map Block.text)).toList ++ ['\n']) := by
    simp [documentText]
  rw [readDocument?, whole?, text, read]
  exact congrArg some List.filterMap_map

/-! Every name in what is read is one. -/

def Input.names (i : Input) : List String := [i.name, i.type.base]

def Field.names (f : Field) : List String :=
  f.name :: f.type.base :: f.arguments.flatMap Input.names

/-- The name of the type, and for a type with fields the names inside it. -/
def Definition.names : Definition → List String
  | .object name fields => name :: fields.flatMap Field.names
  | .input name fields => name :: fields.flatMap Input.names
  | .enum name _ | .scalar name | .interface name | .union name => [name]

theorem typeWithin_yields (fuel : Nat) :
    Yields (typeWithin fuel) fun t => isName t.base = true := by
  induction fuel with
  | zero => rintro s t rest ⟨⟩
  | succ fuel ih =>
      have base : Yields (baseWithin fuel) fun t => isName t.base = true :=
        .orElse (.map nameHere_yields fun _ valid => valid)
          (.after fun _ => .bind ih fun _ valid => .after fun _ => .return_of valid)
      refine .bind base fun t valid => .after fun mark => ?_
      cases mark with
      | none => exact .return_of valid
      | some _ => exact .return_of valid

theorem type_yields : Yields type fun t => isName t.base = true :=
  .after fun _ s => typeWithin_yields (s.length + 1) s

theorem input_yields : Yields input fun i => ∀ n ∈ i.names, isName n = true :=
  .after fun _ => .bind name_yields fun _ named => .after fun _ => .bind type_yields fun _ typed =>
    .after fun _ => .after fun _ => .return_of
      (List.forall_mem_cons.mpr ⟨named, List.forall_mem_singleton.mpr typed⟩)

theorem fieldArguments_yields :
    Yields fieldArguments fun is => ∀ i ∈ is, ∀ n ∈ i.names, isName n = true :=
  .after fun _ => .bind input_yields.many1 fun _ valid => .after fun _ => .return_of valid

theorem field_yields : Yields field fun f => ∀ n ∈ f.names, isName n = true := by
  refine .after fun _ => .bind name_yields fun _ named => ?_
  refine .bind fieldArguments_yields.maybe fun read? valid => .after fun _ => ?_
  refine .bind type_yields fun _ typed => .after fun _ => .return_of ?_
  refine List.forall_mem_cons.mpr ⟨named, List.forall_mem_cons.mpr ⟨typed, ?_⟩⟩
  cases read? with
  | none => exact List.forall_mem_nil _
  | some is => exact List.forall_mem_flatMap.mpr (valid is rfl)

theorem braced_yields {α : Type} {p : Scan α} {P : α → Prop} (h : Yields p P) :
    Yields (braced p) fun as => ∀ a ∈ as, P a :=
  .after fun _ => .bind h.many1 fun _ all => .after fun _ => .return_of all

theorem bodied_yields {α : Type} {body : Scan (List α)} {P : α → Prop} (keyword : String)
    (interfaces : Bool) (h : Yields body fun as => ∀ a ∈ as, P a) :
    Yields (bodied keyword interfaces body) fun r => isName r.1 = true ∧ ∀ a ∈ r.2, P a := by
  have items : ∀ as? : Option (List α), (∀ as ∈ as?, ∀ a ∈ as, P a) →
      ∀ a ∈ as?.getD [], P a := by
    rintro (_ | as) all
    · exact List.forall_mem_nil P
    · exact all as rfl
  have result : ∀ (n : String) (as? : Option (List α)), isName n = true →
      (∀ as ∈ as?, ∀ a ∈ as, P a) →
      Yields (Pure.pure (n, as?.getD [])) fun r => isName r.1 = true ∧ ∀ a ∈ r.2, P a :=
    fun n as? named all => .return_of ⟨named, items as? all⟩
  have checked : ∀ (unchanged : Bool) (n : String) (as? : Option (List α)), isName n = true →
      (∀ as ∈ as?, ∀ a ∈ as, P a) →
      Yields (if unchanged = true then (failure : Scan Unit) >>= fun _ => Pure.pure (n, as?.getD [])
        else Pure.pure (n, as?.getD [])) fun r => isName r.1 = true ∧ ∀ a ∈ r.2, P a := by
    intro unchanged n as? named all
    cases unchanged with
    | false => exact result n as? named all
    | true => exact .after fun _ => result n as? named all
  refine .orElse (.after fun _ => .bind name_yields fun n named => ?_)
    (.after fun _ => .bind name_yields fun n named => ?_)
  · cases interfaces with
    | false => exact .after fun _ => .bind h.maybe fun as? => result n as? named
    | true => exact .after fun _ => .after fun _ => .bind h.maybe fun as? => result n as? named
  · cases interfaces with
    | false => exact .after fun _ => .after fun _ => .bind h.maybe fun as? => checked _ n as? named
    | true => exact .after fun _ => .after fun _ => .bind h.maybe fun as? => checked _ n as? named

theorem typeDefinition_yields :
    Yields typeDefinition fun d => ∀ n ∈ d.names, isName n = true := by
  have alone : ∀ n, isName n = true → ∀ m ∈ [n], isName m = true :=
    fun n valid => List.forall_mem_singleton.mpr valid
  have fields : ∀ {α : Type} (names : α → List String) (r : String × List α),
      (isName r.1 = true ∧ ∀ a ∈ r.2, ∀ n ∈ names a, isName n = true) →
      ∀ n ∈ r.1 :: r.2.flatMap names, isName n = true := by
    rintro α names ⟨name, as⟩ ⟨named, inside⟩
    exact List.forall_mem_cons.mpr ⟨named, List.forall_mem_flatMap.mpr inside⟩
  have enumValues : Yields (braced enumValue) fun vs => ∀ v ∈ vs, True :=
    fun _ _ _ _ _ _ => trivial
  have unionMembers : Yields members fun ms => ∀ m ∈ ms, True := fun _ _ _ _ _ _ => trivial
  have scalar : Yields typeDefinition.scalarDefinition fun r => isName r.1 = true := by
    refine .orElse ?_ ?_
    · exact .after fun _ => .bind name_yields fun _ named => .after fun _ => .return_of named
    · exact .after fun _ => .bind name_yields fun _ named => .after fun _ => .return_of named
  refine .orElse (.map scalar fun r named => alone _ named) ?_
  refine .orElse (.map (bodied_yields _ _ (braced_yields field_yields)) (fields _)) ?_
  refine .orElse (.map (bodied_yields _ _ (braced_yields field_yields)) fun r h => alone _ h.1) ?_
  refine .orElse (.map (bodied_yields _ _ unionMembers) fun r h => alone _ h.1) ?_
  refine .orElse (.map (bodied_yields _ _ enumValues) fun r h => alone _ h.1) ?_
  exact .map (bodied_yields _ _ (braced_yields input_yields)) (fields _)

theorem documentItem_yields :
    Yields documentItem fun d? => ∀ d ∈ d?, ∀ n ∈ d.names, isName n = true := by
  have nothing : ∀ d ∈ (none : Option Definition), ∀ n ∈ d.names, isName n = true :=
    fun d none => by cases none
  have unread : ∀ p : Scan Unit, Yields p fun _ => True := fun _ _ _ _ _ => trivial
  refine .orElse (.map (unread _) fun _ _ => nothing) ?_
  refine .orElse (.map typeDefinition_yields ?_) (.map (unread _) fun _ _ => nothing)
  rintro d valid _ ⟨⟩
  exact valid

theorem names_of_readDocument? {text : String} {definitions : List Definition}
    (read : readDocument? text = some definitions) :
    ∀ d ∈ definitions, ∀ n ∈ d.names, isName n = true := by
  obtain ⟨items, whole, rfl⟩ := Option.map_eq_some_iff.mp read
  obtain ⟨⟨found, rest⟩, scanned, left⟩ := Option.bind_eq_some_iff.mp whole
  obtain ⟨_, ⟨⟩⟩ := Option.ite_none_right_eq_some.mp left
  intro d hd
  obtain ⟨d?, member, shown⟩ := List.mem_filterMap.mp hd
  exact documentItem_yields.many1 _ _ _ scanned d? member d shown

theorem Block.names_definition? (bare : block.Bare) :
    ∃ d, block.definition? = some d ∧ d.names = block.names := by
  have inputs : ∀ ps : List Parameter,
      (ps.map Parameter.asInput).flatMap Input.names = ps.flatMap Parameter.names := fun ps =>
    List.flatMap_map ..
  cases block with
  | object name fields added =>
      refine ⟨_, rfl, ?_⟩
      simp only [Definition.names, Block.names, List.flatMap_map]
      refine congrArg (name :: ·) (List.flatMap_congr fun f _ => ?_)
      simp only [Field.names, FieldLine.asField, FieldLine.names, inputs]
  | input name fields => exact ⟨_, rfl, congrArg (name :: ·) (inputs fields)⟩
  | verbatim text => exact bare.elim

/-- A document is read as what it was written for exactly when every name in it is one. -/
theorem readDocument?_documentText (inhabited : blocks ≠ [])
    (bare : ∀ block ∈ blocks, block.Bare) :
    readDocument? (documentText blocks) = some (blocks.filterMap Block.definition?) ↔
      ∀ block ∈ blocks, ∀ n ∈ block.names, isName n = true := by
  refine ⟨fun read block mem n hn => ?_, readDocument?_of_names inhabited bare⟩
  obtain ⟨d, stands, same⟩ := Block.names_definition? (bare block mem)
  have member : d ∈ blocks.filterMap Block.definition? :=
    List.mem_filterMap.mpr ⟨block, mem, stands⟩
  exact names_of_readDocument? read d member n (same ▸ hn)

end Schema
end EntityGraph
