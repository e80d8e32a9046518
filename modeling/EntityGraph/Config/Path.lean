/-!
File paths as texts: the directory that a path lies in, and the extension of its last part.
Repeated separators and single points count for nothing but are kept where they stand.
-/

namespace EntityGraph

namespace Path

/-- The part after the last separator, and what stands before that separator. -/
def splitLast (cs : List Char) : List Char × List Char :=
  let last := (cs.reverse.takeWhile (· ≠ '/')).reverse
  (last, cs.take (cs.length - last.length - 1))

/-- Without the empty parts and points at the end. -/
def trimEnd : Nat → List Char → List Char
  | 0, cs => cs
  | fuel + 1, cs =>
      if cs.isEmpty then []
      else
        let (last, before) := splitLast cs
        if last.isEmpty || last = ['.'] then trimEnd fuel before else cs

/-- The root or the point that a path begins with, and the rest. -/
def splitLead : List Char → List Char × List Char
  | '/' :: rest => (['/'], rest)
  | ['.'] => (['.'], [])
  | '.' :: '/' :: rest => (['.'], '/' :: rest)
  | cs => ([], cs)

/-- The directory of a path; none for the root and for a single part. -/
def parent? (path : String) : Option String :=
  let (lead, body) := splitLead path.toList
  let body := trimEnd (body.length + 1) body
  if body.isEmpty then none
  else
    let before := (splitLast body).2
    let result := lead ++ trimEnd (before.length + 1) before
    if result.isEmpty then none else some (String.ofList result)

/-- The last part, unless it is the way up. -/
def fileName? (path : String) : Option String :=
  let (_, body) := splitLead path.toList
  let name := (splitLast (trimEnd (body.length + 1) body)).1
  if name.isEmpty || name = ['.', '.'] then none else some (String.ofList name)

/-- What follows the last point of the last part, if that point is not its first character. -/
def extension? (path : String) : Option String := do
  let name ← fileName? path
  let cs := name.toList
  let ending := (cs.reverse.takeWhile (· ≠ '.')).reverse
  if ending.length + 1 < cs.length then some (String.ofList ending) else none

end Path

end EntityGraph
