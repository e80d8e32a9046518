import EntityGraph.Json.Reader

/-!
Scanning documents, schemas and requests alike. A scan takes what it wants from the front of the
remaining characters or fails and takes nothing. Blanks, commas, byte order marks, line ends and
comments may stand between any two tokens; a keyword is only its letters, so a name may follow
it without a gap.
-/

namespace EntityGraph

abbrev Scan (α : Type) := StateT (List Char) Option α

namespace Scan

variable {α β : Type}

def isLineEnd (c : Char) : Bool := c = '\n' || c = '\r'

def isIgnored (c : Char) : Bool :=
  c = ' ' || c = ',' || c = '\t' || c.toNat = 0xFEFF || isLineEnd c

/-- Drops ignored characters and comments, starting inside a comment or not. -/
def dropIgnored : Bool → List Char → List Char
  | _, [] => []
  | true, c :: rest => dropIgnored (!isLineEnd c) rest
  | false, c :: rest =>
      if isIgnored c then dropIgnored false rest
      else if c = '#' then dropIgnored true rest
      else c :: rest

def skip : Scan Unit := fun s => some ((), dropIgnored false s)

def exactly (w : List Char) : Scan Unit := fun s =>
  if w.isPrefixOf s then some ((), s.drop w.length) else none

def word (w : String) : Scan Unit := do
  skip
  exactly w.toList

/-- Succeeds where `p` fails, and takes nothing. -/
def isNot (p : Scan α) : Scan Unit := fun s =>
  match p s with
  | some _ => none
  | none => some ((), s)

def maybe (p : Scan α) : Scan (Option α) := fun s =>
  match p s with
  | some (a, rest) => some (some a, rest)
  | none => some (none, s)

/-- As often as `p` succeeds, and `n` times at most. -/
def upTo (p : Scan α) : Nat → Scan (List α)
  | 0 => fun s => some ([], s)
  | n + 1 => fun s =>
      match p s with
      | none => some ([], s)
      | some (a, rest) => (upTo p n rest).map fun (as, rest) => (a :: as, rest)

/-- As often as `p`, which takes at least one character, succeeds. -/
def many (p : Scan α) : Scan (List α) := fun s => upTo p s.length s

def many1 (p : Scan α) : Scan (List α) := do
  let a ← p
  let as ← many p
  return a :: as

/-- Scans by a rule that nests, no deeper than there are characters. -/
def nested (p : Nat → Scan α) : Scan α := fun s => p (s.length + 1) s

def whole? (p : Scan α) (text : String) : Option α := do
  let (a, rest) ← p text.toList
  if (dropIgnored false rest).isEmpty then some a else none

def isLetter (c : Char) : Bool := ('a' ≤ c && c ≤ 'z') || ('A' ≤ c && c ≤ 'Z')

def isNameStart (c : Char) : Bool := isLetter c || c = '_'

def isNameChar (c : Char) : Bool := isNameStart c || Json.isDigit c

def nameHere : Scan String := fun s =>
  match s with
  | c :: rest =>
      if isNameStart c then
        some (String.ofList (c :: rest.takeWhile isNameChar), rest.dropWhile isNameChar)
      else none
  | [] => none

def name : Scan String := do
  skip
  nameHere

/-- Numbers are whole without leading zeros, then maybe a fraction, then maybe an exponent. -/
def numberHere : Scan Number := fun s => do
  let (negative, cs) :=
    match s with
    | '-' :: rest => (true, rest)
    | _ => (false, s)
  let digits := cs.takeWhile Json.isDigit
  let digits := if digits.head? = some '0' then ['0'] else digits
  if digits.isEmpty then none
  let rest := cs.drop digits.length
  let (fraction, rest) := (Json.readFraction? rest).getD ([], rest)
  let (exponent, rest) := (Json.readExponent? rest).getD (none, rest)
  if (rest.head?.map isNameStart).getD false then none
  let n ← Json.numberOf? negative digits fraction exponent
  return (n, rest)

def number : Scan Number := do
  skip
  numberHere

/-- The characters between single quotation marks, escapes resolved. -/
def quotedChars : Nat → List Char → List Char → Option (String × List Char)
  | 0, _, _ => none
  | _ + 1, _, [] => none
  | fuel + 1, done, c :: rest =>
      if c = '"' then some (String.ofList done.reverse, rest)
      else if isLineEnd c then none
      else if c = '\\' then
        match rest with
        | 'u' :: rest =>
            match Json.readHex4? rest with
            | some (n, rest) =>
                if 0xD800 ≤ n ∧ n ≤ 0xDFFF then none
                else quotedChars fuel (Char.ofNat n :: done) rest
            | none => none
        | e :: rest =>
            match Json.shortEscape? e with
            | some d => quotedChars fuel (d :: done) rest
            | none => none
        | [] => none
      else quotedChars fuel (c :: done) rest

/-- The characters of a block, up to its closing marks; a marked triple does not close it. -/
def blockChars : List Char → Option (List Char × List Char)
  | '"' :: '"' :: '"' :: rest => some ([], rest)
  | '\\' :: '"' :: '"' :: '"' :: rest =>
      (blockChars rest).map fun (cs, rest) => ('\\' :: '"' :: '"' :: '"' :: cs, rest)
  | c :: rest => (blockChars rest).map fun (cs, rest) => (c :: cs, rest)
  | [] => none

/-- The lines of a block; a carriage return with its line feed is one line end. -/
def linesOf : List Char → List (List Char)
  | [] => [[]]
  | '\r' :: '\n' :: rest => [] :: linesOf rest
  | c :: rest =>
      if isLineEnd c then [] :: linesOf rest
      else match linesOf rest with
        | line :: lines => (c :: line) :: lines
        | [] => [[c]]

def isIndent (c : Char) : Bool := c = ' ' || c = '\t'

/-- The width of the blanks before a line's first other character. -/
def indentOf? (line : List Char) : Option Nat :=
  if line.all isIndent then none else some (line.takeWhile isIndent).length

def dropBlankLines (lines : List (List Char)) : List (List Char) :=
  lines.dropWhile fun line => line.all isIndent

/-- The value of a block: the blanks that all lines but the first share are taken off these, and
blank lines at both ends are dropped. -/
def blockValue (cs : List Char) : String :=
  match linesOf cs with
  | [] => ""
  | first :: others =>
      let indent := ((others.filterMap indentOf?).min?).getD 0
      let others := others.map fun line => if line.length < indent then line else line.drop indent
      let lines := (dropBlankLines (dropBlankLines (first :: others)).reverse).reverse
      String.ofList (List.intercalate ['\n'] lines)

def stringHere : Scan String := fun s =>
  let quoted : Option (String × List Char) :=
    match s with
    | '"' :: rest => quotedChars (rest.length + 1) [] rest
    | _ => none
  match s with
  | '"' :: '"' :: '"' :: rest =>
      match blockChars rest with
      | some (cs, rest) => some (blockValue cs, rest)
      | none => quoted
  | _ => quoted

def string : Scan String := do
  skip
  stringHere

end Scan

end EntityGraph
