import EntityGraph.Json.Reader
import EntityGraph.Service.Execution

/-!
Submissions as they come in the body of a message: JSON with the text of the request, the name of
the operation and the variables, written as a table or, in that order, as a list. The declared
kind of the content must make sense, but is read as JSON whatever it is.
-/

namespace EntityGraph

namespace Http

/-- The characters of a word in a content type. -/
def isTokenChar (c : Char) : Bool :=
  Json.isDigit c || Scan.isLetter c || "!#$&-^_.'*%|~`+".toList.contains c

def dropToken (cs : List Char) : List Char := cs.dropWhile isTokenChar

/-- The characters after a quoted value. -/
def dropQuoted? : List Char → Option (List Char)
  | [] => none
  | '\\' :: _ :: rest => dropQuoted? rest
  | '"' :: rest => some rest
  | _ :: rest => dropQuoted? rest

/-- Parameters of a content type: a name and a value each, semicolons between them. -/
def isParameters : Nat → List Char → Bool
  | 0, _ => false
  | _, [] => true
  | fuel + 1, cs =>
      let cs := cs.dropWhile (· = ' ')
      if cs.isEmpty then true
      else
        match dropToken cs with
        | '=' :: rest =>
            let value? := match rest with
              | '"' :: rest => dropQuoted? rest
              | rest => some (dropToken rest)
            match value? with
            | none => false
            | some [] => rest.length + 1 < cs.length
            | some (';' :: more) => rest.length + 1 < cs.length && isParameters fuel more
            | some _ => false
        | _ => false

/-- The type before the slash of a content type, if it is one. -/
def mediaType? (s : String) : Option String :=
  let cs := s.toList
  let type := cs.takeWhile isTokenChar
  match cs.drop type.length with
  | '/' :: rest =>
      let ok := match dropToken rest with
        | [] => true
        | ';' :: more => rest.head? != some ';' && isParameters (more.length + 1) more
        | _ => false
      if ok && !type.isEmpty then some (String.ofList type) else none
  | _ => none

/-- Whether a body of this kind is read as a submission. Without a kind it is. -/
def isReadable (contentType : Option String) : Bool :=
  match contentType with
  | none => true
  | some s =>
      match mediaType? s with
      | some type => !(type.toLower = "multipart")
      | none => false

/-- The value under a name, none at all if the name comes twice. -/
def entry? (entries : List (Document × Document)) (name : String) : Option (Option Document) :=
  match entries.filter fun e => match e.1 with | .text k => k = name | _ => false with
  | [] => some none
  | [(_, d)] => some (some d)
  | _ => none

def textPart? : Option Document → Option String
  | none => some ""
  | some (.text s) => some s
  | some _ => none

def namePart? : Option Document → Option (Option String)
  | none | some .null => some none
  | some (.text s) => some (some s)
  | some _ => none

def givenPart? : Option Document → Option Row
  | none | some .null => some []
  | some d =>
      match d.toJson? with
      | some (.object fields) => some fields
      | _ => none

def extensionsPart? : Option Document → Option Unit
  | none => some ()
  | some (.table _) => some ()
  | some _ => none

def submissionOf? (query operation given extensions : Option Document) : Option Submission := do
  let text ← textPart? query
  let operation ← namePart? operation
  let given ← givenPart? given
  extensionsPart? extensions
  return ⟨text, operation, given⟩

def submission? (body : String) : Option Submission :=
  match Json.readDocument body with
  | (.table entries, true) =>
      if Document.entriesWhole entries then do
        let query ← entry? entries "query"
        let operation ← entry? entries "operationName"
        let given ← entry? entries "variables"
        let extensions ← entry? entries "extensions"
        submissionOf? query operation given extensions
      else none
  | (.list items, true) =>
      if Document.allWhole items && items.length ≤ 4 then
        submissionOf? items[0]? items[1]? items[2]? items[3]?
      else none
  | _ => none

end Http

end EntityGraph
