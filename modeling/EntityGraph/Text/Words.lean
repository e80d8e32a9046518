import EntityGraph.Text.Case

/-!
Splitting a name into words and joining the words in lower camel case. A name is looked at
cluster by cluster: a character together with the marks that follow it.
-/

namespace EntityGraph

namespace Text

def addMark (c : Char) : List (List Char) → List (List Char)
  | [] => [[c]]
  | cluster :: rest => (cluster ++ [c]) :: rest

/-- `done` holds the clusters passed, the latest first; `waiting` says that the latest waits for
the character it leads. -/
def clustersFrom (done : List (List Char)) (waiting : Bool) : List Char → List (List Char)
  | [] => done.reverse
  | c :: rest =>
      let mark := inRanges markRanges c.toNat
      let done := if waiting || mark then addMark c done else [c] :: done
      clustersFrom done (inRanges leadRanges c.toNat) rest

def clusters (cs : List Char) : List (List Char) := clustersFrom [] false cs

inductive ClusterKind where
  | separator
  | digit
  | upper
  | lower
  | other
deriving DecidableEq, Repr

def clusterKind (cluster : List Char) : ClusterKind :=
  if cluster = ['_'] ∨ cluster = ['-'] ∨ cluster = [' '] then .separator
  else if cluster.all fun c => '0' ≤ c && c ≤ '9' then .digit
  else
    let up := upper cluster
    let low := lower cluster
    if up = low then .other
    else if cluster = up then .upper
    else if cluster = low then .lower
    else .other

/-- Whether a word ends between two neighbours, `next` being the kind after them. -/
def isBoundary (left right : ClusterKind) (next : Option ClusterKind) : Bool :=
  match left, right with
  | .lower, .upper | .upper, .digit | .digit, .upper | .digit, .lower | .lower, .digit => true
  | .upper, .upper => next = some .lower
  | _, _ => false

/-- `word` is the word being read, `previous` the kind of its last cluster. -/
def wordsFrom (word : List (List Char)) (previous : Option ClusterKind) :
    List (List Char) → List (List (List Char))
  | [] => [word.reverse]
  | c :: rest =>
      let kind := clusterKind c
      if kind = .separator then word.reverse :: wordsFrom [] (some kind) rest
      else
        let splits :=
          match previous with
          | some p => isBoundary p kind (rest.head?.map clusterKind)
          | none => false
        if splits then word.reverse :: wordsFrom [c] (some kind) rest
        else wordsFrom (c :: word) (some kind) rest

def words (s : String) : List (List (List Char)) :=
  (wordsFrom [] none (clusters s.toList)).filter fun w => !w.isEmpty

def capitalized : List (List Char) → List Char
  | [] => []
  | c :: rest => upper c ++ lower rest.flatten

/-- The words run together, the first in lower case and the others capitalized. -/
def camelCase (s : String) : String :=
  match words s with
  | [] => ""
  | w :: rest => String.ofList (lower w.flatten ++ rest.flatMap capitalized)

def capitalizeFirst (s : String) : String :=
  match s.toList with
  | [] => ""
  | c :: rest => String.ofList (upperChar c ++ rest)

end Text

end EntityGraph
