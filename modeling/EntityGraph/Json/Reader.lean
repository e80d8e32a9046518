import EntityGraph.Document

/-!
Reading JSON text. The grammar is the strict one: no comments, no trailing commas, blanks are
space, tab, line feed and carriage return. Lists and tables nest at most 127 deep.
-/

namespace EntityGraph

namespace Json

def isBlank (c : Char) : Bool := c = ' ' || c = '\n' || c = '\t' || c = '\r'

def skipBlanks (cs : List Char) : List Char := cs.dropWhile isBlank

def hexValue? (c : Char) : Option Nat :=
  if '0' ≤ c ∧ c ≤ '9' then some (c.toNat - 48)
  else if 'a' ≤ c ∧ c ≤ 'f' then some (c.toNat - 87)
  else if 'A' ≤ c ∧ c ≤ 'F' then some (c.toNat - 55)
  else none

def readHex4? : List Char → Option (Nat × List Char)
  | a :: b :: c :: d :: rest => do
      let a ← hexValue? a
      let b ← hexValue? b
      let c ← hexValue? c
      let d ← hexValue? d
      return (((a * 16 + b) * 16 + c) * 16 + d, rest)
  | _ => none

/-- The character that the digits after `\u` stand for; two surrogates make one. -/
def readUnicode? (cs : List Char) : Option (Char × List Char) := do
  let (n, rest) ← readHex4? cs
  if n < 0xD800 ∨ 0xDFFF < n then return (Char.ofNat n, rest)
  if 0xDC00 ≤ n then none
  match rest with
  | '\\' :: 'u' :: rest =>
      let (m, rest) ← readHex4? rest
      if 0xDC00 ≤ m ∧ m ≤ 0xDFFF then
        return (Char.ofNat (0x10000 + (n - 0xD800) * 0x400 + (m - 0xDC00)), rest)
      none
  | _ => none

def shortEscape? : Char → Option Char
  | '"' => some '"'
  | '\\' => some '\\'
  | '/' => some '/'
  | 'b' => some (Char.ofNat 8)
  | 'f' => some (Char.ofNat 12)
  | 'n' => some '\n'
  | 'r' => some '\r'
  | 't' => some '\t'
  | _ => none

/-- The characters up to the closing quote, and what follows it. -/
def readString? : Nat → List Char → List Char → Option (String × List Char)
  | 0, _, _ => none
  | _ + 1, _, [] => none
  | fuel + 1, done, c :: rest =>
      if c = '"' then some (String.ofList done.reverse, rest)
      else if c = '\\' then
        match rest with
        | 'u' :: rest =>
            match readUnicode? rest with
            | some (d, rest) => readString? fuel (d :: done) rest
            | none => none
        | e :: rest =>
            match shortEscape? e with
            | some d => readString? fuel (d :: done) rest
            | none => none
        | [] => none
      else if c.toNat < 32 then none
      else readString? fuel (c :: done) rest

def digitsValue (cs : List Char) : Nat := cs.foldl (fun n c => n * 10 + (c.toNat - 48)) 0

def isDigit (c : Char) : Bool := '0' ≤ c && c ≤ '9'

/-- The digits after a point, at least one, when there is a point. -/
def readFraction? : List Char → Option (List Char × List Char)
  | '.' :: rest =>
      let ds := rest.takeWhile isDigit
      if ds.isEmpty then none else some (ds, rest.dropWhile isDigit)
  | cs => some ([], cs)

/-- The exponent after `e` or `E`, when there is one. -/
def readExponent? (cs : List Char) : Option (Option Int × List Char) :=
  match cs with
  | c :: rest =>
      if c = 'e' ∨ c = 'E' then
        let (negative, rest) :=
          match rest with
          | '-' :: rest => (true, rest)
          | '+' :: rest => (false, rest)
          | _ => (false, rest)
        let ds := rest.takeWhile isDigit
        if ds.isEmpty then none
        else
          let n : Int := digitsValue ds
          some (some (if negative then -n else n), rest.dropWhile isDigit)
      else some (none, cs)
  | [] => some (none, [])

/-- The number that the written parts stand for. Without a point and an exponent it is an
integer if it fits, and minus zero is a double. -/
def numberOf? (negative : Bool) (whole fraction : List Char) (exponent : Option Int) :
    Option Number :=
  let double : Option Number :=
    (Double.ofDecimal? negative (digitsValue (whole ++ fraction))
      (exponent.getD 0 - fraction.length)).map .double
  if fraction.isEmpty && exponent.isNone then
    let n : Int := digitsValue whole
    if negative then
      if n = 0 then double else if n ≤ Nat.pow 2 63 then some (.int (-n)) else double
    else if n < Nat.pow 2 64 then some (.int n) else double
  else double

def readNumber? (cs : List Char) : Option (Number × List Char) := do
  let (negative, cs) :=
    match cs with
    | '-' :: rest => (true, rest)
    | _ => (false, cs)
  let whole := cs.takeWhile isDigit
  if whole.isEmpty then none
  if whole.head? = some '0' ∧ 1 < whole.length then none
  let (fraction, rest) ← readFraction? (cs.dropWhile isDigit)
  let (exponent, rest) ← readExponent? rest
  let n ← numberOf? negative whole fraction exponent
  return (n, rest)

def readWord? (word : String) (d : Document) (cs : List Char) :
    Option (Document × List Char) :=
  let w := word.toList
  if w.isPrefixOf cs then some (d, cs.drop w.length) else none

mutual

/-- A value and what follows it; nothing follows a cut. -/
def readValue : Nat → Nat → List Char → Document × Option (List Char)
  | 0, _, _ => (.cut, none)
  | fuel + 1, depth, cs =>
      match skipBlanks cs with
      | '"' :: rest =>
          match readString? (rest.length + 1) [] rest with
          | some (s, rest) => (.text s, some rest)
          | none => (.cut, none)
      | '[' :: rest =>
          if depth ≤ 1 then (.cut, none)
          else match skipBlanks rest with
            | ']' :: rest => (.list [], some rest)
            | rest =>
                let (items, rest) := readItems fuel (depth - 1) rest
                (.list items, rest)
      | '\x7b' :: rest =>
          if depth ≤ 1 then (.cut, none)
          else match skipBlanks rest with
            | '\x7d' :: rest => (.table [], some rest)
            | rest =>
                let (entries, rest) := readEntries fuel (depth - 1) rest
                (.table entries, rest)
      | 't' :: rest => ofOption (readWord? "rue" (.bool true) rest)
      | 'f' :: rest => ofOption (readWord? "alse" (.bool false) rest)
      | 'n' :: rest => ofOption (readWord? "ull" .null rest)
      | rest => ofOption ((readNumber? rest).map fun (n, rest) => (.number n, rest))
where
  ofOption : Option (Document × List Char) → Document × Option (List Char)
    | some (d, rest) => (d, some rest)
    | none => (.cut, none)

def readItems : Nat → Nat → List Char → List Document × Option (List Char)
  | 0, _, _ => ([.cut], none)
  | fuel + 1, depth, cs =>
      match readValue fuel depth cs with
      | (d, none) => ([d], none)
      | (d, some rest) =>
          match skipBlanks rest with
          | ']' :: rest => ([d], some rest)
          | ',' :: rest =>
              let (ds, rest) := readItems fuel depth rest
              (d :: ds, rest)
          | _ => ([d, .cut], none)

def readEntries : Nat → Nat → List Char → List (Document × Document) × Option (List Char)
  | 0, _, _ => ([(.cut, .cut)], none)
  | fuel + 1, depth, cs =>
      match skipBlanks cs with
      | '"' :: rest =>
          match readString? (rest.length + 1) [] rest with
          | none => ([(.cut, .cut)], none)
          | some (k, rest) =>
              match skipBlanks rest with
              | ':' :: rest =>
                  match readValue fuel depth rest with
                  | (d, none) => ([(.text k, d)], none)
                  | (d, some rest) =>
                      match skipBlanks rest with
                      | '\x7d' :: rest => ([(.text k, d)], some rest)
                      | ',' :: rest =>
                          let (es, rest) := readEntries fuel depth rest
                          ((.text k, d) :: es, rest)
                      | _ => ([(.text k, d), (.cut, .cut)], none)
              | _ => ([(.text k, .cut)], none)
      | _ => ([(.cut, .cut)], none)

end

/-- The tree of a text, and whether nothing but blanks follows it. -/
def readDocument (s : String) : Document × Bool :=
  let cs := s.toList
  match readValue (2 * cs.length + 2) 128 cs with
  | (d, some rest) => (d, (skipBlanks rest).isEmpty)
  | (d, none) => (d, false)

def read? (s : String) : Option Json :=
  match readDocument s with
  | (d, true) => d.toJson?
  | _ => none

end Json

end EntityGraph
