import EntityGraph.Yaml.Scalar

/-!
The tokens of a YAML text. Indentation is turned into tokens that open and close blocks, and a
scalar that turns out to be a key gets its key token put in front of it afterwards.
-/

namespace EntityGraph

namespace Yaml

inductive Token where
  | documentStart
  | documentEnd
  | directive
  | blockSequence
  | blockMapping
  | blockEnd
  | flowSequence
  | flowSequenceEnd
  | flowMapping
  | flowMappingEnd
  | entry
  | comma
  | key
  | value
  | aliasOf (name : String)
  | anchor (name : String)
  | tag (name : String)
  | scalar (text : String) (isPlain : Bool)
  | streamEnd
  /-- From here on the text makes no sense. -/
  | fault
deriving DecidableEq, Repr

/-- A token that may turn out to begin a key. -/
structure KeyCandidate where
  /-- How many tokens stand before it. -/
  place : Nat
  line : Nat
  column : Nat
  index : Nat
  /-- Whether nothing but a key may stand here. -/
  required : Bool
deriving Repr

structure Scanner where
  rest : List Char
  line : Nat := 0
  column : Nat := 0
  index : Nat := 0
  keyAllowed : Bool := true
  /-- The candidate of each flow level, the innermost first. -/
  candidates : List (Option KeyCandidate) := [none]
  indent : Int := -1
  outerIndents : List Int := []
  flowLevel : Nat := 0
  tokens : List Token := []

def isBreak (c : Char) : Bool :=
  c = '\n' || c = '\r' || c.toNat = 0x85 || c.toNat = 0x2028 || c.toNat = 0x2029

def isSpaceOrTab (c : Char) : Bool := c = ' ' || c = '\t'

/-- Blank, line end or the end of the text. -/
def endsWord : List Char → Bool
  | [] => true
  | c :: _ => isSpaceOrTab c || isBreak c

/-- The written form of the line end that the text begins with, and what follows it. -/
def takeBreak : List Char → Option (Char × List Char × Nat)
  | '\r' :: '\n' :: rest => some ('\n', rest, 2)
  | c :: rest =>
      if c = '\r' ∨ c = '\n' ∨ c.toNat = 0x85 then some ('\n', rest, 1)
      else if c.toNat = 0x2028 ∨ c.toNat = 0x2029 then some (c, rest, 1)
      else none
  | [] => none

/-- Characters that may stand in a YAML text. -/
def isPrintable (c : Char) : Bool :=
  let n := c.toNat
  n = 9 || n = 10 || n = 13 || (32 ≤ n && n ≤ 0x7E) || n = 0x85 || (0xA0 ≤ n && n ≤ 0xD7FF) ||
    (0xE000 ≤ n && n ≤ 0xFFFD && n ≠ 0xFEFF) || 0x10000 ≤ n

namespace Scanner

def advance (s : Scanner) (n : Nat := 1) : Scanner :=
  { s with rest := s.rest.drop n, column := s.column + n, index := s.index + n }

def nextLine (s : Scanner) (rest : List Char) (n : Nat) : Scanner :=
  { s with rest := rest, line := s.line + 1, column := 0, index := s.index + n }

def add (s : Scanner) (t : Token) : Scanner := { s with tokens := s.tokens ++ [t] }

def insertAt (place : Nat) (t : Token) (ts : List Token) : List Token :=
  ts.take place ++ t :: ts.drop place

/-- Opens a block at the column if that lies further in. -/
def rollIndent (s : Scanner) (column : Nat) (place : Option Nat) (t : Token) : Scanner :=
  if s.flowLevel = 0 ∧ s.indent < column then
    { s with
      outerIndents := s.indent :: s.outerIndents
      indent := column
      tokens :=
        match place with
        | some p => insertAt p t s.tokens
        | none => s.tokens ++ [t] }
  else s

def unrollFrom (s : Scanner) (column : Int) : List Int → Scanner
  | [] => s
  | outer :: rest =>
      if column < s.indent then
        unrollFrom
          { s with indent := outer, outerIndents := rest, tokens := s.tokens ++ [.blockEnd] }
          column rest
      else s

/-- Closes the blocks that lie further in than the column. -/
def unrollIndent (s : Scanner) (column : Int) : Scanner :=
  if s.flowLevel = 0 then unrollFrom s column s.outerIndents else s

def setCandidate (s : Scanner) (k : Option KeyCandidate) : Scanner :=
  { s with candidates := k :: s.candidates.drop 1 }

def candidate? (s : Scanner) : Option KeyCandidate := s.candidates.head?.join

/-- Gives up the candidate, which must not be a required one. -/
def dropCandidate (s : Scanner) : Option Scanner :=
  match s.candidate? with
  | some k => if k.required then none else some (s.setCandidate none)
  | none => some s

def noteCandidate (s : Scanner) : Option Scanner :=
  if s.keyAllowed then do
    let s ← s.dropCandidate
    return s.setCandidate (some
      { place := s.tokens.length
        line := s.line
        column := s.column
        index := s.index
        required := s.flowLevel = 0 && s.indent = s.column })
  else some s

/-- Gives up the candidates that lie on an earlier line or too far back. -/
def dropStale (s : Scanner) : Option Scanner := do
  let ks ← s.candidates.mapM fun k =>
    match k with
    | some k =>
        if k.line < s.line ∨ k.index + 1024 < s.index then
          if k.required then none else some none
        else some (some k)
    | none => some none
  return { s with candidates := ks }

/-- Over blanks, comments and line ends to the next token. -/
def skipToToken : Nat → Scanner → Scanner
  | 0, s => s
  | fuel + 1, s =>
      match s.rest with
      | [] => s
      | c :: rest =>
          if c = ' ' ∨ (c = '\t' ∧ (s.flowLevel ≠ 0 ∨ !s.keyAllowed)) then
            skipToToken fuel s.advance
          else if c = '#' then
            skipToToken fuel (s.advance ((c :: rest).takeWhile fun d => !isBreak d).length)
          else match takeBreak s.rest with
            | some (_, after, n) =>
                let s := s.nextLine after n
                skipToToken fuel (if s.flowLevel = 0 then { s with keyAllowed := true } else s)
            | none => s

/-- Whether a line begins here with three of the character and a blank. -/
def atMarker (s : Scanner) (c : Char) : Bool :=
  s.column = 0 &&
    (match s.rest with
      | a :: b :: d :: rest => a = c && b = c && d = c && endsWord rest
      | _ => false)

def atAnyMarker (s : Scanner) : Bool := s.atMarker '-' || s.atMarker '.'

/-- Blanks and line ends between the words of a scalar. -/
structure Gap where
  blanks : List Char := []
  firstBreak : Option Char := none
  moreBreaks : List Char := []

/-- What a gap amounts to: one line end is a space, further ones stay. -/
def Gap.fold (g : Gap) : List Char :=
  match g.firstBreak with
  | none => g.blanks
  | some '\n' => if g.moreBreaks.isEmpty then [' '] else g.moreBreaks
  | some c => c :: g.moreBreaks

/-- Reads a gap. In a plain scalar of a block a tab must not stand in the indentation. -/
def readGap (indent : Option Int) : Nat → Scanner → Gap → Option (Scanner × Gap)
  | 0, s, g => some (s, g)
  | fuel + 1, s, g =>
      match s.rest with
      | c :: _ =>
          if isSpaceOrTab c then
            if g.firstBreak.isSome && c = '\t' && indent.any (fun i => (s.column : Int) < i) then
              none
            else
              readGap indent fuel s.advance
                (if g.firstBreak.isSome then g else { g with blanks := g.blanks ++ [c] })
          else match takeBreak s.rest with
            | some (b, after, n) =>
                readGap indent fuel (s.nextLine after n)
                  (match g.firstBreak with
                    | none => { g with blanks := [], firstBreak := some b }
                    | some _ => { g with moreBreaks := g.moreBreaks ++ [b] })
            | none => some (s, g)
      | [] => some (s, g)

def isFlowMark (c : Char) : Bool := c = ',' || c = '[' || c = ']' || c = '\x7b' || c = '\x7d'

/-- The characters of one word of a plain scalar; none at a misplaced colon. -/
def plainWord (inFlow : Bool) : List Char → Option (List Char)
  | [] => some []
  | c :: rest =>
      if isSpaceOrTab c || isBreak c then some []
      else if inFlow && c = ':' && (rest.head?.any fun d => isFlowMark d || d = '?') then none
      else if c = ':' && endsWord rest then some []
      else if inFlow && isFlowMark c then some []
      else (plainWord inFlow rest).map (c :: ·)

/-- Words and the gaps between them; `gap` stands before the next word. -/
def plainFrom (indent : Int) :
    Nat → Scanner → List Char → Gap → Option (Scanner × List Char × Bool)
  | 0, s, done, gap => some (s, done, gap.firstBreak.isSome)
  | fuel + 1, s, done, gap =>
      if s.atAnyMarker || s.rest.head? = some '#' then some (s, done, gap.firstBreak.isSome)
      else match plainWord (s.flowLevel ≠ 0) s.rest with
        | none => none
        | some [] => some (s, done, gap.firstBreak.isSome)
        | some word =>
            let done := done ++ gap.fold ++ word
            let s := s.advance word.length
            match s.rest with
            | c :: _ =>
                if isSpaceOrTab c || isBreak c then
                  match readGap (some indent) (s.rest.length + 1) s {} with
                  | none => none
                  | some (s, gap) =>
                      if s.flowLevel = 0 && (s.column : Int) < indent then
                        some (s, done, gap.firstBreak.isSome)
                      else plainFrom indent fuel s done gap
                else some (s, done, false)
            | [] => some (s, done, false)

def scanPlain (s : Scanner) : Option Scanner := do
  let s ← s.noteCandidate
  let s := { s with keyAllowed := false }
  let (s, text, broken) ← plainFrom (s.indent + 1) (s.rest.length + 1) s [] {}
  let s := if broken then { s with keyAllowed := true } else s
  return s.add (.scalar (String.ofList text) true)

def hexRun? (n : Nat) (cs : List Char) : Option Nat :=
  if cs.length < n then none else radixValue? 16 (cs.take n)

def escapeChar? : Char → Option Char
  | '0' => some (Char.ofNat 0)
  | 'a' => some (Char.ofNat 7)
  | 'b' => some (Char.ofNat 8)
  | 't' => some '\t'
  | '\t' => some '\t'
  | 'n' => some '\n'
  | 'v' => some (Char.ofNat 11)
  | 'f' => some (Char.ofNat 12)
  | 'r' => some '\r'
  | 'e' => some (Char.ofNat 27)
  | ' ' => some ' '
  | '"' => some '"'
  | '/' => some '/'
  | '\\' => some '\\'
  | 'N' => some (Char.ofNat 0x85)
  | '_' => some (Char.ofNat 0xA0)
  | 'L' => some (Char.ofNat 0x2028)
  | 'P' => some (Char.ofNat 0x2029)
  | _ => none

def escapeWidth? : Char → Option Nat
  | 'x' => some 2
  | 'u' => some 4
  | 'U' => some 8
  | _ => none

def charOf? (n : Nat) : Option Char :=
  if n < 0xD800 ∨ (0xDFFF < n ∧ n ≤ 0x10FFFF) then some (Char.ofNat n) else none

/-- The inside of a quoted scalar up to the closing quote. -/
def quotedFrom (single : Bool) : Nat → Scanner → List Char → Option (Scanner × List Char)
  | 0, _, _ => none
  | fuel + 1, s, done =>
      if s.atAnyMarker then none
      else match s.rest with
        | [] => none
        | c :: rest =>
            if single && c = '\'' then
              if rest.head? = some '\'' then
                quotedFrom single fuel (s.advance 2) (done ++ ['\''])
              else some (s.advance, done)
            else if !single && c = '"' then some (s.advance, done)
            else if !single && c = '\\' then
              match takeBreak rest with
              | some (_, after, n) => do
                  let (s, gap) ←
                    readGap none (after.length + 1) (s.nextLine after (n + 1))
                      { firstBreak := some '\n' }
                  quotedFrom single fuel s (done ++ gap.moreBreaks)
              | none =>
                  match rest with
                  | [] => none
                  | e :: more =>
                      match escapeWidth? e with
                      | some w => do
                          let n ← hexRun? w more
                          let d ← charOf? n
                          quotedFrom single fuel (s.advance (2 + w)) (done ++ [d])
                      | none => do
                          let d ← escapeChar? e
                          quotedFrom single fuel (s.advance 2) (done ++ [d])
            else if isSpaceOrTab c || isBreak c then do
              let (s, gap) ← readGap none (s.rest.length + 1) s {}
              quotedFrom single fuel s (done ++ gap.fold)
            else quotedFrom single fuel s.advance (done ++ [c])

def scanQuoted (s : Scanner) (single : Bool) : Option Scanner := do
  let s ← s.noteCandidate
  let s := { s with keyAllowed := false }
  let (s, text) ← quotedFrom single (s.rest.length + 1) s.advance []
  return s.add (.scalar (String.ofList text) false)

inductive Chomping where
  | strip
  | clip
  | keep
deriving DecidableEq

/-- Spaces of the indentation and the empty lines; `deepest` is the largest column seen. -/
def blockBreaks (indent : Int) :
    Nat → Scanner → List Char → Nat → Option (Scanner × List Char × Nat)
  | 0, s, breaks, deepest => some (s, breaks, deepest)
  | fuel + 1, s, breaks, deepest =>
      let inside : Bool := indent = 0 || (s.column : Int) < indent
      match s.rest with
      | ' ' :: _ =>
          if inside then blockBreaks indent fuel s.advance breaks (max deepest (s.column + 1))
          else some (s, breaks, max deepest s.column)
      | '\t' :: _ => if inside then none else some (s, breaks, max deepest s.column)
      | _ =>
          match takeBreak s.rest with
          | some (b, after, n) =>
              blockBreaks indent fuel (s.nextLine after n) (breaks ++ [b]) (max deepest s.column)
          | none => some (s, breaks, max deepest s.column)

/-- The lines of a block scalar. `lead` is the line end after the last one. -/
def blockLines (literal : Bool) (indent : Int) :
    Nat → Scanner → List Char → List Char → List Char → Bool →
      Option (Scanner × List Char × List Char × List Char)
  | 0, s, done, lead, breaks, _ => some (s, done, lead, breaks)
  | fuel + 1, s, done, lead, breaks, wasBlank =>
      if (s.column : Int) ≠ indent ∨ s.rest.isEmpty then some (s, done, lead, breaks)
      else
        let blank := s.rest.head?.any isSpaceOrTab
        let done :=
          if !literal && lead.head? = some '\n' && !wasBlank && !blank then
            if breaks.isEmpty then done ++ [' '] else done ++ breaks
          else done ++ lead ++ breaks
        let text := s.rest.takeWhile fun c => !isBreak c
        let s := s.advance text.length
        let (lead, s) :=
          match takeBreak s.rest with
          | some (b, after, n) => ([b], s.nextLine after n)
          | none => ([], s)
        match blockBreaks indent (s.rest.length + 1) s [] 0 with
        | none => none
        | some (s, breaks, _) =>
            blockLines literal indent fuel s (done ++ text) lead breaks blank

/-- The signs after the mark of a block scalar: what is done with the last line ends, and how
far in the text stands. -/
def blockHeader? (cs : List Char) : Option (Chomping × Nat × List Char) :=
  let sign? : Char → Option Chomping
    | '+' => some .keep
    | '-' => some .strip
    | _ => none
  let digit (cs : List Char) : Option (Nat × List Char) :=
    match cs with
    | c :: rest =>
        if Json.isDigit c then (if c = '0' then none else some (c.toNat - 48, rest))
        else some (0, cs)
    | [] => some (0, [])
  match cs with
  | c :: rest =>
      match sign? c with
      | some chomping => (digit rest).map fun (n, rest) => (chomping, n, rest)
      | none => do
          let (n, rest) ← digit cs
          match rest with
          | c :: after =>
              match sign? c with
              | some chomping =>
                  if n = 0 then return (.clip, n, rest) else return (chomping, n, after)
              | none => return (.clip, n, rest)
          | [] => return (.clip, n, [])
  | [] => some (.clip, 0, [])

def scanBlockScalar (s : Scanner) (literal : Bool) : Option Scanner := do
  let s ← s.dropCandidate
  let s := { s with keyAllowed := true }
  let (chomping, increment, after) ← blockHeader? (s.rest.drop 1)
  let s := s.advance (s.rest.length - after.length)
  let blanks := s.rest.takeWhile isSpaceOrTab
  let s := s.advance blanks.length
  let s :=
    if s.rest.head? = some '#' then
      s.advance (s.rest.takeWhile fun c => !isBreak c).length
    else s
  let s ←
    match takeBreak s.rest with
    | some (_, rest, n) => some (s.nextLine rest n)
    | none => if s.rest.isEmpty then some s else none
  let indent : Int :=
    if increment = 0 then 0 else if 0 ≤ s.indent then s.indent + increment else increment
  let (s, breaks, deepest) ← blockBreaks indent (s.rest.length + 1) s [] 0
  let indent : Int := if indent = 0 then max (max (deepest : Int) (s.indent + 1)) 1 else indent
  let (s, text, lead, breaks) ← blockLines literal indent (s.rest.length + 1) s [] [] breaks false
  let text := if chomping = .strip then text else text ++ lead
  let text := if chomping = .keep then text ++ breaks else text
  return s.add (.scalar (String.ofList text) false)

def isNameChar (c : Char) : Bool := c.isAlphanum || c = '_' || c = '-'

def scanName (s : Scanner) (make : String → Token) : Option Scanner := do
  let s ← s.noteCandidate
  let name := (s.rest.drop 1).takeWhile isNameChar
  let s := { s with keyAllowed := false }.advance (1 + name.length)
  let closes : Bool :=
    endsWord s.rest || (s.rest.head?.any fun c =>
      c = '?' || c = ':' || c = ',' || c = ']' || c = '\x7d' || c = '%' || c = '@' || c.toNat = 96)
  if name.isEmpty || !closes then none
  return s.add (make (String.ofList name))

/-- A tag; two exclamation marks stand for the standard tags. -/
def scanTag (s : Scanner) : Option Scanner := do
  let s ← s.noteCandidate
  let inFlow := s.flowLevel ≠ 0
  let body :=
    match s.rest.drop 1 with
    | '<' :: rest => ('<' :: rest.takeWhile fun c => c ≠ '>') ++ ['>']
    | rest => rest.takeWhile fun c =>
        !(isSpaceOrTab c || isBreak c) && !(inFlow && isFlowMark c)
  let s := { s with keyAllowed := false }.advance (1 + body.length)
  if !endsWord s.rest && !(inFlow && s.rest.head? = some ',') then none
  let name :=
    match body with
    | '!' :: rest => "tag:yaml.org,2002:" ++ String.ofList rest
    | '<' :: rest => String.ofList (rest.takeWhile fun c => c ≠ '>')
    | rest => "!" ++ String.ofList rest
  return s.add (.tag name)

def openFlow (s : Scanner) (t : Token) : Option Scanner := do
  let s ← s.noteCandidate
  let s := { s with
    candidates := none :: s.candidates
    flowLevel := s.flowLevel + 1
    keyAllowed := true }
  return s.advance.add t

def closeFlow (s : Scanner) (t : Token) : Option Scanner := do
  let s ← s.dropCandidate
  let s :=
    if s.flowLevel = 0 then s
    else { s with candidates := s.candidates.drop 1, flowLevel := s.flowLevel - 1 }
  return { s with keyAllowed := false }.advance.add t

def scanEntry (s : Scanner) : Option Scanner := do
  let s ←
    if s.flowLevel = 0 then
      if s.keyAllowed then some (s.rollIndent s.column none .blockSequence) else none
    else some s
  let s ← s.dropCandidate
  return { s with keyAllowed := true }.advance.add .entry

def scanKey (s : Scanner) : Option Scanner := do
  let s ←
    if s.flowLevel = 0 then
      if s.keyAllowed then some (s.rollIndent s.column none .blockMapping) else none
    else some s
  let s ← s.dropCandidate
  return { s with keyAllowed := s.flowLevel = 0 }.advance.add .key

def scanValue (s : Scanner) : Option Scanner :=
  match s.candidate? with
  | some k =>
      let s := { s with tokens := insertAt k.place .key s.tokens }
      let s := s.rollIndent k.column (some k.place) .blockMapping
      some ({ s.setCandidate none with keyAllowed := false }.advance.add .value)
  | none => do
      let s ←
        if s.flowLevel = 0 then
          if s.keyAllowed then some (s.rollIndent s.column none .blockMapping) else none
        else some s
      return { s with keyAllowed := s.flowLevel = 0 }.advance.add .value

def scanMarker (s : Scanner) (t : Token) : Option Scanner := do
  let s ← (s.unrollIndent (-1)).dropCandidate
  return ({ s with keyAllowed := false }.advance 3).add t

def scanDirective (s : Scanner) : Option Scanner := do
  let s ← (s.unrollIndent (-1)).dropCandidate
  let s := s.advance (s.rest.takeWhile fun c => !isBreak c).length
  return { s with keyAllowed := false }.add .directive

def scanEnd (s : Scanner) : Option Scanner := do
  let s := if s.column = 0 then s else { s with column := 0, line := s.line + 1 }
  let s ← (s.unrollIndent (-1)).dropCandidate
  return { s with keyAllowed := false }.add .streamEnd

def isIndicator (c : Char) : Bool :=
  "-?:,[]\x7b\x7d#&*!|>'\"%@".toList.contains c || c.toNat = 96

/-- The next token, or several with the blocks that it opens and closes. -/
def step (s : Scanner) : Option Scanner := do
  let s := skipToToken (s.rest.length + 1) s
  let s ← s.dropStale
  let s := s.unrollIndent s.column
  match s.rest with
  | [] => s.scanEnd
  | c :: rest =>
      let wordEnds := endsWord rest
      let inFlow : Bool := s.flowLevel ≠ 0
      if s.column = 0 && c = '%' then s.scanDirective
      else if s.atMarker '-' then s.scanMarker .documentStart
      else if s.atMarker '.' then s.scanMarker .documentEnd
      else if c = '[' then s.openFlow .flowSequence
      else if c = '\x7b' then s.openFlow .flowMapping
      else if c = ']' then s.closeFlow .flowSequenceEnd
      else if c = '\x7d' then s.closeFlow .flowMappingEnd
      else if c = ',' then do
        let s ← s.dropCandidate
        return { s with keyAllowed := true }.advance.add .comma
      else if c = '-' && wordEnds then s.scanEntry
      else if c = '?' && (inFlow || wordEnds) then s.scanKey
      else if c = ':' && (inFlow || wordEnds) then s.scanValue
      else if c = '*' then s.scanName .aliasOf
      else if c = '&' then s.scanName .anchor
      else if c = '!' then s.scanTag
      else if c = '|' && !inFlow then s.scanBlockScalar true
      else if c = '>' && !inFlow then s.scanBlockScalar false
      else if c = '\'' then s.scanQuoted true
      else if c = '"' then s.scanQuoted false
      else if !isIndicator c || (c = '-' && !wordEnds) ||
          (!inFlow && (c = '?' || c = ':') && !wordEnds) then s.scanPlain
      else none

def run : Nat → Scanner → List Token
  | 0, s => s.tokens ++ [.fault]
  | fuel + 1, s =>
      match s.step with
      | none => s.tokens ++ [.fault]
      | some s => if s.tokens.getLast? = some .streamEnd then s.tokens else run fuel s

end Scanner

/-- The tokens of a text, the last of which is its end or a fault. -/
def tokens (text : String) : List Token :=
  let cs := text.toList
  let cs := if cs.head?.any (·.toNat = 0xFEFF) then cs.drop 1 else cs
  if cs.all isPrintable then Scanner.run (cs.length + 2) { rest := cs } else [.fault]

end Yaml

end EntityGraph
