/-!
Blank characters, and texts without what surrounds them.
-/

namespace EntityGraph

namespace Text

/-- The characters with the property of white space. -/
def isBlank (c : Char) : Bool :=
  let n := c.toNat
  (9 ≤ n && n ≤ 13) || n = 32 || n = 0x85 || n = 0xA0 || n = 0x1680 ||
    (0x2000 ≤ n && n ≤ 0x200A) || n = 0x2028 || n = 0x2029 || n = 0x202F || n = 0x205F ||
    n = 0x3000

def allBlank (s : String) : Bool := s.toList.all isBlank

/-- The characters without those at both ends that satisfy `p`. -/
def trim (p : Char → Bool) (cs : List Char) : List Char :=
  ((cs.dropWhile p).reverse.dropWhile p).reverse

def trimLines (s : String) : String := String.ofList (trim (· == '\n') s.toList)

/-- The parts with `separator` between each two of them. -/
def join (separator : String) : List String → String
  | [] => ""
  | [s] => s
  | s :: rest => s ++ separator ++ join separator rest

end Text

end EntityGraph
