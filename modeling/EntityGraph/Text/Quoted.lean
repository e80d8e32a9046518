import EntityGraph.Text.Case

/-!
Texts in double quotes for messages: quotes, backslashes and everything that would not show are
escaped.
-/

namespace EntityGraph

namespace Text

def hexDigits (n : Nat) : List Char := Nat.toDigits 16 n

def escapeShown (c : Char) : List Char :=
  if c = '"' then ['\\', '"']
  else if c = '\\' then ['\\', '\\']
  else if c = '\n' then ['\\', 'n']
  else if c = '\r' then ['\\', 'r']
  else if c = '\t' then ['\\', 't']
  else if c.toNat = 0 then ['\\', '0']
  else if inRanges hiddenRanges c.toNat || inRanges combiningRanges c.toNat then
    ['\\', 'u', '\x7b'] ++ hexDigits c.toNat ++ ['\x7d']
  else [c]

def quoted (s : String) : String :=
  "\"" ++ String.ofList (s.toList.flatMap escapeShown) ++ "\""

end Text

end EntityGraph
