import EntityGraph.Document
import EntityGraph.Yaml.Scalar

/-!
Reading a document as booleans, texts, lists, dictionaries and records. Everything is read in
the order of the text, so the fault that stands first is the one that is reported.
-/

namespace EntityGraph

inductive DescriptorError where
  | malformed
  /-- A relation through a middle entity does not say through which relation. -/
  | missingVia (target : String)
deriving DecidableEq, Repr

namespace DescriptorError

def message? : DescriptorError → Option String
  | .malformed => none
  | .missingVia target => some s!"many_through relation to {target} needs a `via` relation"

end DescriptorError

abbrev DocumentReader (α : Type) := Document → Except DescriptorError α

namespace Document

variable {α : Type}

def readBool : DocumentReader Bool
  | .bool b => .ok b
  | .plain s =>
      match Yaml.boolWord? s with
      | some b => .ok b
      | none => .error .malformed
  | _ => .error .malformed

/-- An unquoted scalar is its own text, whatever it looks like. -/
def readText : DocumentReader String
  | .text s => .ok s
  | .plain s => .ok s
  | _ => .error .malformed

def readOptionalText : DocumentReader (Option String)
  | .null => .ok none
  | .text s => .ok (some s)
  | .plain s => .ok (if s.isEmpty || Yaml.isNullWord s then none else some s)
  | _ => .error .malformed

def readList (read : DocumentReader α) : DocumentReader (List α)
  | .list items => items.mapM read
  | .plain s => if s.isEmpty then .ok [] else .error .malformed
  | _ => .error .malformed

/-- The entries of a table; nothing written at all is an empty one. -/
def readEntries : DocumentReader (List (Document × Document))
  | .table entries => .ok entries
  | .plain s => if s.isEmpty then .ok [] else .error .malformed
  | _ => .error .malformed

def readDict (read : DocumentReader α) : DocumentReader (Dict α) := fun d => do
  let entries ← readEntries d
  entries.foldlM (fun done (k, v) => do
    let key ← readText k
    let value ← read v
    return Dict.insert done key value) []

/-- A field of a record: the names it may have, and how it is read. -/
structure Slot (α : Type) where
  names : List String
  read : DocumentReader α

/-- The place of the first slot that has the name. -/
def slotIndex? (slots : List (Slot α)) (name : String) : Option Nat :=
  slots.findIdx? (·.names.contains name)

/-- The fields of a record in the order of the text. A field may come once; what is not a field
is passed over. -/
def readFields (slots : List (Slot α)) (seen : List Nat) :
    List (Document × Document) → Except DescriptorError (List α)
  | [] => .ok []
  | (k, v) :: rest => do
      let key ← readText k
      match slotIndex? slots key with
      | none => if v.isWhole then readFields slots seen rest else .error .malformed
      | some i =>
          if seen.contains i then .error .malformed
          else match slots[i]? with
            | none => .error .malformed
            | some slot =>
                let part ← slot.read v
                let parts ← readFields slots (i :: seen) rest
                return part :: parts

def readPositions : List (Slot α) → List Document → Except DescriptorError (List α)
  | _, [] => .ok []
  | [], _ :: _ => .error .malformed
  | slot :: slots, d :: rest => do
      let part ← slot.read d
      let parts ← readPositions slots rest
      return part :: parts

/-- The parts of a record. With `positions` it may also be written as the list of its fields. -/
def readRecord (positions : Bool) (slots : List (Slot α)) : DocumentReader (List α)
  | .list items => if positions then readPositions slots items else .error .malformed
  | d => do readFields slots [] (← readEntries d)

end Document

end EntityGraph
