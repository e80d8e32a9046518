import EntityGraph.Json.Basic

/-!
Laying values over each other. What was there first stays; objects are completed by the entries
that they lack, also the objects in lists, place by place.
-/

namespace EntityGraph

namespace Json

mutual

/-- What stands under one key after `new` came to `old`. -/
def mergeValue (old : Json) : Json → Json
  | .object new =>
      match old with
      | .object fields => .object (mergeFields fields new)
      | old => old
  | .array new =>
      match old with
      | .array items => .array (mergeItems items new)
      | old => old
  | _ => old

def mergeItems : List Json → List Json → List Json
  | old, [] => old
  | [], _ => []
  | o :: old, v :: new =>
      (match o, v with
        | .object fields, .object entries => .object (mergeFields fields entries)
        | o, _ => o) :: mergeItems old new

def mergeFields (fields : Row) : List (String × Json) → Row
  | [] => fields
  | (k, v) :: rest =>
      match Dict.get? fields k with
      | none => mergeFields (fields ++ [(k, v)]) rest
      | some old => mergeFields (Dict.insert fields k (mergeValue old v)) rest

end

/-- The object of entries among which a key may come more than once. -/
def ofEntries (entries : List (String × Json)) : Json := .object (mergeFields [] entries)

end Json

end EntityGraph
