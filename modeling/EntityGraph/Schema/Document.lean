import EntityGraph.Text.Blank

/-!
Schema documents as they are generated: object types, input types and text taken over as it is.
The written form has one field a line and a blank line between types.
-/

namespace EntityGraph

inductive TypeRef where
  | named (name : String)
  | list (item : TypeRef)
  | nonNull (type : TypeRef)
deriving DecidableEq, Repr

def TypeRef.text : TypeRef → String
  | .named name => name
  | .list item => "[" ++ item.text ++ "]"
  | .nonNull type => type.text ++ "!"

namespace Schema

/-- A name with its type: an argument, or a field of an input type. -/
structure Parameter where
  name : String
  type : TypeRef
deriving DecidableEq, Repr

structure FieldLine where
  name : String
  arguments : List Parameter
  type : TypeRef
deriving DecidableEq, Repr

inductive Block where
  /-- The added text stands after the fields, before the closing brace. -/
  | object (name : String) (fields : List FieldLine) (added : Option String)
  | input (name : String) (fields : List Parameter)
  | verbatim (text : String)
deriving DecidableEq, Repr

def Parameter.text (p : Parameter) : String := p.name ++ ": " ++ p.type.text

def FieldLine.text (f : FieldLine) : String :=
  let arguments :=
    if f.arguments.isEmpty then ""
    else "(" ++ Text.join ", " (f.arguments.map Parameter.text) ++ ")"
  f.name ++ arguments ++ ": " ++ f.type.text

def line (s : String) : String := "  " ++ s ++ "\n"

def linesText : List String → String
  | [] => ""
  | s :: rest => line s ++ linesText rest

def bodyText (keyword name : String) (lines : List String) (added : Option String) : String :=
  let tail :=
    match added with
    | some text => text ++ "\n"
    | none => ""
  keyword ++ " " ++ name ++ " \x7b\n" ++ linesText lines ++ tail ++ "\x7d"

def Block.text : Block → String
  | .object name fields added => bodyText "type" name (fields.map FieldLine.text) added
  | .input name fields => bodyText "input" name (fields.map Parameter.text) none
  | .verbatim text => text

def documentText (blocks : List Block) : String :=
  Text.join "\n\n" (blocks.map Block.text) ++ "\n"

end Schema

end EntityGraph
