import EntityGraph.Yaml.Token
import EntityGraph.Document

/-!
The tree of a YAML text. An alias stands for a copy of what its anchor marks, which must come
before it and be complete.
-/

namespace EntityGraph

namespace Yaml

/-- What a reading of tokens yields: a tree, the anchors known after it, and the tokens that
follow, of which there are none after a cut. -/
structure Reading where
  tree : Document
  anchors : Dict Document
  rest : Option (List Token)

def Reading.cut : Reading := ⟨.cut, [], none⟩

/-- The same for the items of a list or the entries of a table. -/
structure ReadingOf (α : Type) where
  parts : List α
  anchors : Dict Document
  rest : Option (List Token)

def emptyScalar : Document := .plain ""

/-- A scalar under its tag. Only the tag for texts matters. -/
def scalarTree (tag : Option String) (text : String) (isPlain : Bool) : Document :=
  if isPlain && tag ≠ some "tag:yaml.org,2002:str" then .plain text else .text text

def endsSequenceEntry : Token → Bool
  | .entry | .blockEnd => true
  | _ => false

def endsIndentlessEntry : Token → Bool
  | .entry | .key | .value | .blockEnd => true
  | _ => false

def endsMappingPart : Token → Bool
  | .key | .value | .blockEnd => true
  | _ => false

def endsFlowKey (closing : Token) (t : Token) : Bool := t = .value || t = .comma || t = closing

def endsFlowValue (closing : Token) (t : Token) : Bool := t = .comma || t = closing

/-- The properties before a node: anchor and tag, in either order. -/
def properties : List Token → Option String × Option String × List Token
  | .anchor a :: .tag t :: rest => (some a, some t, rest)
  | .tag t :: .anchor a :: rest => (some a, some t, rest)
  | .anchor a :: rest => (some a, none, rest)
  | .tag t :: rest => (none, some t, rest)
  | ts => (none, none, ts)

def mark (name : Option String) (r : Reading) : Reading :=
  match name with
  | some name => { r with anchors := Dict.insert r.anchors name r.tree }
  | none => r

def ofParts {α : Type} (make : List α → Document) (r : ReadingOf α) : Reading :=
  ⟨make r.parts, r.anchors, r.rest⟩

mutual

/-- A node. In a block it may be a block; as part of a mapping it may be a sequence that is not
indented. -/
def readNode (block indentless : Bool) : Nat → Dict Document → List Token → Reading
  | 0, _, _ => .cut
  | _ + 1, anchors, .aliasOf name :: rest =>
      match Dict.get? anchors name with
      | some d => ⟨d, anchors, some rest⟩
      | none => .cut
  | fuel + 1, anchors, ts =>
      let (name, tag, ts) := properties ts
      mark name <|
        match ts with
        | .scalar text isPlain :: rest => ⟨scalarTree tag text isPlain, anchors, some rest⟩
        | .flowSequence :: rest => ofParts .list (readFlowItems true fuel anchors rest)
        | .flowMapping :: rest => ofParts .table (readFlowEntries true fuel anchors rest)
        | .entry :: rest =>
            if indentless then ofParts .list (readIndentless fuel anchors (.entry :: rest))
            else if name.isSome || tag.isSome then ⟨emptyScalar, anchors, some ts⟩
            else .cut
        | .blockSequence :: rest =>
            if block then ofParts .list (readBlockItems fuel anchors rest) else .cut
        | .blockMapping :: rest =>
            if block then ofParts .table (readBlockEntries fuel anchors rest) else .cut
        | .fault :: _ => .cut
        | ts =>
            if name.isSome || tag.isSome then ⟨emptyScalar, anchors, some ts⟩ else .cut

/-- A node, or an empty scalar where the next token ends the place for one. -/
def readPart (block indentless : Bool) (ends : Token → Bool) :
    Nat → Dict Document → List Token → Reading
  | 0, _, _ => .cut
  | fuel + 1, anchors, ts =>
      if ts.head?.any ends then ⟨emptyScalar, anchors, some ts⟩
      else readNode block indentless fuel anchors ts

def readBlockItems : Nat → Dict Document → List Token → ReadingOf Document
  | 0, _, _ => ⟨[.cut], [], none⟩
  | _ + 1, anchors, .blockEnd :: rest => ⟨[], anchors, some rest⟩
  | fuel + 1, anchors, .entry :: rest =>
      match readPart true false endsSequenceEntry fuel anchors rest with
      | ⟨d, _, none⟩ => ⟨[d], [], none⟩
      | ⟨d, anchors, some rest⟩ =>
          let more := readBlockItems fuel anchors rest
          { more with parts := d :: more.parts }
  | _ + 1, _, _ => ⟨[.cut], [], none⟩

def readIndentless : Nat → Dict Document → List Token → ReadingOf Document
  | 0, _, _ => ⟨[.cut], [], none⟩
  | fuel + 1, anchors, .entry :: rest =>
      match readPart true false endsIndentlessEntry fuel anchors rest with
      | ⟨d, _, none⟩ => ⟨[d], [], none⟩
      | ⟨d, anchors, some rest⟩ =>
          let more := readIndentless fuel anchors rest
          { more with parts := d :: more.parts }
  | _ + 1, anchors, ts => ⟨[], anchors, some ts⟩

def readBlockEntries : Nat → Dict Document → List Token → ReadingOf (Document × Document)
  | 0, _, _ => ⟨[(.cut, .cut)], [], none⟩
  | _ + 1, anchors, .blockEnd :: rest => ⟨[], anchors, some rest⟩
  | fuel + 1, anchors, .key :: rest =>
      match readPart true true endsMappingPart fuel anchors rest with
      | ⟨k, _, none⟩ => ⟨[(k, .cut)], [], none⟩
      | ⟨k, anchors, some rest⟩ => readBlockValue fuel k anchors rest
  | _ + 1, _, _ => ⟨[(.cut, .cut)], [], none⟩

/-- The value of a key, and the entries after it. -/
def readBlockValue : Nat → Document → Dict Document → List Token →
    ReadingOf (Document × Document)
  | 0, _, _, _ => ⟨[(.cut, .cut)], [], none⟩
  | fuel + 1, k, anchors, ts =>
      let value :=
        match ts with
        | .value :: rest => readPart true true endsMappingPart fuel anchors rest
        | ts => ⟨emptyScalar, anchors, some ts⟩
      match value with
      | ⟨v, _, none⟩ => ⟨[(k, v)], [], none⟩
      | ⟨v, anchors, some rest⟩ =>
          let more := readBlockEntries fuel anchors rest
          { more with parts := (k, v) :: more.parts }

def readFlowItems (first : Bool) : Nat → Dict Document → List Token → ReadingOf Document
  | 0, _, _ => ⟨[.cut], [], none⟩
  | _ + 1, anchors, .flowSequenceEnd :: rest => ⟨[], anchors, some rest⟩
  | fuel + 1, anchors, ts =>
      match first, ts with
      | false, .comma :: .flowSequenceEnd :: rest => ⟨[], anchors, some rest⟩
      | false, .comma :: rest => readFlowItem fuel anchors rest
      | true, ts => readFlowItem fuel anchors ts
      | false, _ => ⟨[.cut], [], none⟩

/-- One item of a flow sequence, which may be a single pair, and the items after it. -/
def readFlowItem : Nat → Dict Document → List Token → ReadingOf Document
  | 0, _, _ => ⟨[.cut], [], none⟩
  | fuel + 1, anchors, ts =>
      let item :=
        match ts with
        | .key :: rest => readFlowPair fuel anchors rest
        | ts => readNode false false fuel anchors ts
      match item with
      | ⟨d, _, none⟩ => ⟨[d], [], none⟩
      | ⟨d, anchors, some rest⟩ =>
          let more := readFlowItems false fuel anchors rest
          { more with parts := d :: more.parts }

def readFlowPair : Nat → Dict Document → List Token → Reading
  | 0, _, _ => .cut
  | fuel + 1, anchors, ts =>
      match readPart false false (endsFlowKey .flowSequenceEnd) fuel anchors ts with
      | ⟨k, _, none⟩ => ⟨.table [(k, .cut)], [], none⟩
      | ⟨k, anchors, some (.value :: rest)⟩ =>
          let v := readPart false false (endsFlowValue .flowSequenceEnd) fuel anchors rest
          { v with tree := .table [(k, v.tree)] }
      | ⟨k, anchors, some rest⟩ => ⟨.table [(k, emptyScalar)], anchors, some rest⟩

def readFlowEntries (first : Bool) :
    Nat → Dict Document → List Token → ReadingOf (Document × Document)
  | 0, _, _ => ⟨[(.cut, .cut)], [], none⟩
  | _ + 1, anchors, .flowMappingEnd :: rest => ⟨[], anchors, some rest⟩
  | fuel + 1, anchors, ts =>
      match first, ts with
      | false, .comma :: .flowMappingEnd :: rest => ⟨[], anchors, some rest⟩
      | false, .comma :: rest => readFlowEntry fuel anchors rest
      | true, ts => readFlowEntry fuel anchors ts
      | false, _ => ⟨[(.cut, .cut)], [], none⟩

/-- One entry of a flow mapping and the entries after it. -/
def readFlowEntry : Nat → Dict Document → List Token → ReadingOf (Document × Document)
  | 0, _, _ => ⟨[(.cut, .cut)], [], none⟩
  | fuel + 1, anchors, ts =>
      let (keyed, key) :=
        match ts with
        | .key :: rest =>
            (true, readPart false false (endsFlowKey .flowMappingEnd) fuel anchors rest)
        | ts => (false, readNode false false fuel anchors ts)
      match key with
      | ⟨k, _, none⟩ => ⟨[(k, .cut)], [], none⟩
      | ⟨k, anchors, some rest⟩ =>
          let value :=
            match keyed, rest with
            | true, .value :: rest =>
                readPart false false (endsFlowValue .flowMappingEnd) fuel anchors rest
            | _, rest => ⟨emptyScalar, anchors, some rest⟩
          match value with
          | ⟨v, _, none⟩ => ⟨[(k, v)], [], none⟩
          | ⟨v, anchors, some rest⟩ =>
              let more := readFlowEntries false fuel anchors rest
              { more with parts := (k, v) :: more.parts }

end

def dropDocumentEnds : List Token → List Token
  | .documentEnd :: rest => dropDocumentEnds rest
  | ts => ts

def dropDirectives : List Token → List Token
  | .directive :: rest => dropDirectives rest
  | ts => ts

/-- The root of a document begun explicitly may be missing. -/
def endsDocument : Token → Bool
  | .directive | .documentStart | .documentEnd | .streamEnd => true
  | _ => false

/-- The tree of the first document, and whether it is the only one. No document at all counts
as one with nothing in it. -/
def readDocument (text : String) : Document × Bool :=
  let ts := tokens text
  let fuel := 4 * ts.length + 4
  let root : Reading :=
    match ts with
    | [.streamEnd] => ⟨emptyScalar, [], some ts⟩
    | ts =>
        match dropDirectives ts with
        | .documentStart :: rest => readPart true false endsDocument fuel [] rest
        | .documentEnd :: rest =>
            match dropDirectives (dropDocumentEnds rest) with
            | [.streamEnd] => ⟨emptyScalar, [], some [.streamEnd]⟩
            | .documentStart :: rest => readPart true false endsDocument fuel [] rest
            | rest => readNode true false fuel [] rest
        | rest =>
            match ts with
            | .directive :: _ => .cut
            | _ => readNode true false fuel [] rest
  match root with
  | ⟨d, _, some rest⟩ => (d, dropDocumentEnds rest = [.streamEnd])
  | ⟨d, _, none⟩ => (d, false)

end Yaml

end EntityGraph
