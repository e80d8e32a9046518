import EntityGraph.Proofs.Dict
import EntityGraph.Proofs.WrittenValues

/-!
What the reader makes of a text: whatever the text, the numbers are integers of 64 bits or finite
doubles, and no object has a key twice.
-/

namespace EntityGraph
namespace Document

mutual

/-- All numbers in the document are such as values hold. -/
def NumbersProper : Document → Prop
  | .number n => n.Proper
  | .list items => ItemsProper items
  | .table entries => EntriesProper entries
  | _ => True

def ItemsProper : List Document → Prop
  | [] => True
  | d :: rest => NumbersProper d ∧ ItemsProper rest

def EntriesProper : List (Document × Document) → Prop
  | [] => True
  | (_, d) :: rest => NumbersProper d ∧ EntriesProper rest

end

end Document

namespace Json
open Document

theorem properFields_iff {fields : List (String × Json)} :
    ProperFields fields ↔ ∀ e ∈ fields, Proper e.2 := by
  induction fields with
  | nil => simp [ProperFields]
  | cons e rest ih => simp [ProperFields, ih]

theorem properFields_insert {fields : Row} (proper : ProperFields fields) (key : String) {v : Json}
    (value : v.Proper) : ProperFields (Dict.insert fields key v) := by
  refine properFields_iff.mpr fun e he => ?_
  obtain rfl | stored := Dict.mem_insert he
  · exact value
  · exact properFields_iff.mp proper e stored

theorem properFields_insertAll {fields more : Row} (proper : ProperFields fields)
    (values : ProperFields more) : ProperFields (Dict.insertAll fields more) := by
  induction more generalizing fields with
  | nil => exact proper
  | cons e rest ih => exact ih (properFields_insert proper e.1 values.1) values.2

theorem numbersProper_ofOption {result : Option (Document × List Char)}
    (h : ∀ out ∈ result, NumbersProper out.1) :
    NumbersProper (readValue.ofOption result).1 := by
  cases result with
  | none => trivial
  | some out => exact h out rfl

theorem numbersProper_readWord? {word : String} {d : Document} (proper : NumbersProper d)
    (cs : List Char) : NumbersProper (readValue.ofOption (readWord? word d cs)).1 := by
  refine numbersProper_ofOption fun out hout => ?_
  unfold readWord? at hout
  dsimp only at hout
  split at hout
  · cases hout
    exact proper
  · cases hout

section Deeper

variable {fuel : Nat}

theorem numbersProper_readValue_succ
    (items : ∀ depth cs, ItemsProper (readItems fuel depth cs).1)
    (entries : ∀ depth cs, EntriesProper (readEntries fuel depth cs).1) (depth : Nat)
    (cs : List Char) : NumbersProper (readValue (fuel + 1) depth cs).1 := by
  rw [readValue]
  split
  · -- a string
    split <;> trivial
  · -- a list
    split
    · trivial
    · split
      · trivial
      · exact items (depth - 1) _
  · -- an object
    split
    · trivial
    · split
      · trivial
      · exact entries (depth - 1) _
  · exact numbersProper_readWord? (d := .bool true) trivial _
  · exact numbersProper_readWord? (d := .bool false) trivial _
  · exact numbersProper_readWord? (d := .null) trivial _
  · refine numbersProper_ofOption fun out hout => ?_
    obtain ⟨⟨n, rest⟩, read, rfl⟩ := Option.map_eq_some_iff.mp hout
    exact Number.proper_of_readNumber? read

theorem itemsProper_readItems_succ
    (value : ∀ depth cs, NumbersProper (readValue fuel depth cs).1)
    (items : ∀ depth cs, ItemsProper (readItems fuel depth cs).1) (depth : Nat)
    (cs : List Char) : ItemsProper (readItems (fuel + 1) depth cs).1 := by
  have first := value depth cs
  rw [readItems]
  split
  · rename_i read
    rw [read] at first
    exact ⟨first, trivial⟩
  · rename_i read
    rw [read] at first
    split
    · exact ⟨first, trivial⟩
    · exact ⟨first, items depth _⟩
    · exact ⟨first, trivial, trivial⟩

theorem entriesProper_readEntries_succ
    (value : ∀ depth cs, NumbersProper (readValue fuel depth cs).1)
    (entries : ∀ depth cs, EntriesProper (readEntries fuel depth cs).1) (depth : Nat)
    (cs : List Char) : EntriesProper (readEntries (fuel + 1) depth cs).1 := by
  have cut : EntriesProper [(.cut, .cut)] := ⟨trivial, trivial⟩
  rw [readEntries]
  split
  · split
    · exact cut
    · split
      · rename_i rest _
        have first := value depth rest
        split
        · rename_i read
          rw [read] at first
          exact ⟨first, trivial⟩
        · rename_i read
          rw [read] at first
          split
          · exact ⟨first, trivial⟩
          · exact ⟨first, entries depth _⟩
          · exact ⟨first, cut⟩
      · exact ⟨trivial, trivial⟩
  · exact cut

end Deeper

theorem numbersProper_read (fuel : Nat) : ∀ depth cs,
    NumbersProper (readValue fuel depth cs).1 ∧ ItemsProper (readItems fuel depth cs).1 ∧
      EntriesProper (readEntries fuel depth cs).1 := by
  induction fuel with
  | zero => exact fun _ _ => ⟨trivial, ⟨trivial, trivial⟩, ⟨trivial, trivial⟩⟩
  | succ fuel ih =>
      have value := fun depth cs => (ih depth cs).1
      have items := fun depth cs => (ih depth cs).2.1
      have entries := fun depth cs => (ih depth cs).2.2
      exact fun depth cs => ⟨numbersProper_readValue_succ items entries depth cs,
        itemsProper_readItems_succ value items depth cs,
        entriesProper_readEntries_succ value entries depth cs⟩

mutual

theorem proper_of_toJson? : ∀ {d : Document}, NumbersProper d → ∀ {v : Json}, d.toJson? = some v →
    v.Proper
  | .null, _, _, h => by cases h; trivial
  | .bool _, _, _, h => by cases h; trivial
  | .number n, proper, _, h => by cases h; exact proper
  | .text _, _, _, h => by cases h; trivial
  | .plain _, _, _, h => by cases h; trivial
  | .list items, proper, _, h => by
      obtain ⟨vs, found, rfl⟩ := Option.map_eq_some_iff.mp h
      exact proper_of_itemsToJson? proper found
  | .table entries, proper, _, h => by
      obtain ⟨fields, found, rfl⟩ := Option.map_eq_some_iff.mp h
      have nothing : Proper (.object []) := ⟨List.nodup_nil, trivial⟩
      exact proper_of_entriesToJson? proper nothing found
  | .cut, _, _, h => by cases h

theorem proper_of_itemsToJson? : ∀ {items : List Document}, ItemsProper items →
    ∀ {vs : List Json}, itemsToJson? items = some vs → ProperItems vs
  | [], _, _, h => by cases h; trivial
  | d :: rest, proper, _, h => by
      obtain ⟨v, found, h⟩ := Option.bind_eq_some_iff.mp h
      obtain ⟨vs, others, h⟩ := Option.bind_eq_some_iff.mp h
      cases h
      exact ⟨proper_of_toJson? proper.1 found, proper_of_itemsToJson? proper.2 others⟩

theorem proper_of_entriesToJson? : ∀ {entries : List (Document × Document)},
    EntriesProper entries → ∀ {done fields : Row}, Proper (.object done) →
    entriesToJson? done entries = some fields → Proper (.object fields)
  | [], _, _, _, before, h => by cases h; exact before
  | (.text k, d) :: rest, proper, done, _, before, h => by
      obtain ⟨v, found, h⟩ := Option.bind_eq_some_iff.mp h
      have value := proper_of_toJson? proper.1 found
      exact proper_of_entriesToJson? proper.2 ⟨Dict.nodup_keys_insert before.1 k v,
        properFields_insert before.2 k value⟩ h
  | (.null, _) :: _, _, _, _, _, h => by cases h
  | (.bool _, _) :: _, _, _, _, _, h => by cases h
  | (.number _, _) :: _, _, _, _, _, h => by cases h
  | (.plain _, _) :: _, _, _, _, _, h => by cases h
  | (.list _, _) :: _, _, _, _, _, h => by cases h
  | (.table _, _) :: _, _, _, _, _, h => by cases h
  | (.cut, _) :: _, _, _, _, _, h => by cases h

end

/-- Whatever text is read, the value is a proper one. -/
theorem proper_of_read? {s : String} {v : Json} (h : read? s = some v) : v.Proper := by
  unfold read? at h
  split at h
  · rename_i d whole
    have proper := (numbersProper_read (2 * s.toList.length + 2) 128 s.toList).1
    unfold readDocument at whole
    dsimp only at whole
    split at whole
    · rename_i rest read
      rw [read] at proper
      obtain ⟨rfl, _⟩ := Prod.mk.inj whole
      exact proper_of_toJson? proper h
    · cases whole
  · cases h

/-- A text that is all one number is read as the number. -/
theorem read?_of_readNumber? {s : String} {c : Char} {cs : List Char} {n : Number}
    (written : s.toList = c :: cs) (opens : c = '-' ∨ isDigit c = true)
    (read : readNumber? (c :: cs) = some (n, [])) : read? s = some (.number n) := by
  rw [read?, readDocument, written, readValue_of_readNumber? opens read]
  rfl

end Json
end EntityGraph
