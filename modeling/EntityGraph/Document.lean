import EntityGraph.Json.Basic

/-!
What a reader of JSON or YAML text makes of it before any meaning is given to it. Entries stand
in the order of the text, repeated keys included. Where the text stops being well formed the
tree ends in a cut, so that a fault of meaning further up is still found first.
-/

namespace EntityGraph

inductive Document where
  | null
  | bool (b : Bool)
  | number (n : Number)
  | text (s : String)
  /-- A scalar without quotes, whose kind depends on what is asked of it. -/
  | plain (s : String)
  | list (items : List Document)
  | table (entries : List (Document × Document))
  | cut
deriving Repr

namespace Document

instance : Inhabited Document := ⟨.cut⟩

mutual

/-- Whether the text was well formed to the end. -/
def isWhole : Document → Bool
  | .list items => allWhole items
  | .table entries => entriesWhole entries
  | .cut => false
  | _ => true

def allWhole : List Document → Bool
  | [] => true
  | d :: rest => isWhole d && allWhole rest

def entriesWhole : List (Document × Document) → Bool
  | [] => true
  | (k, v) :: rest => isWhole k && isWhole v && entriesWhole rest

end

mutual

/-- The JSON value of a document whose keys are texts; the last of repeated keys counts, at the
place of the first. -/
def toJson? : Document → Option Json
  | .null => some .null
  | .bool b => some (.bool b)
  | .number n => some (.number n)
  | .text s => some (.string s)
  | .plain s => some (.string s)
  | .list items => (itemsToJson? items).map .array
  | .table entries => (entriesToJson? [] entries).map .object
  | .cut => none

def itemsToJson? : List Document → Option (List Json)
  | [] => some []
  | d :: rest => do
      let v ← toJson? d
      let vs ← itemsToJson? rest
      return v :: vs

def entriesToJson? (done : Row) : List (Document × Document) → Option Row
  | [] => some done
  | (.text k, d) :: rest => do
      let v ← toJson? d
      entriesToJson? (Dict.insert done k v) rest
  | _ :: _ => none

end

mutual

def ofJson : Json → Document
  | .null => .null
  | .bool b => .bool b
  | .number n => .number n
  | .string s => .text s
  | .array items => .list (ofItems items)
  | .object fields => .table (ofFields fields)

def ofItems : List Json → List Document
  | [] => []
  | v :: rest => ofJson v :: ofItems rest

def ofFields : List (String × Json) → List (Document × Document)
  | [] => []
  | (k, v) :: rest => (.text k, ofJson v) :: ofFields rest

end

end Document

end EntityGraph
