import EntityGraph.Query.Expansion
import EntityGraph.Service.TypeSystem

/-!
The rules that a request document must keep before any of it is carried out. They look at every
operation of the document, also at those that the request is not about. Values of variables
count where they are given; an argument in which one is missing is not looked at.
-/

namespace EntityGraph

namespace Service

namespace TypeTable

/-- Whether a value that is neither null nor composed belongs to the type. -/
def acceptsScalar (t : TypeTable) (name : String) (v : Literal) : Bool :=
  match name, v with
  | "Int", .number n => n.toInt64?.isSome
  | "Float", .number _ => true
  | "String", .string _ => true
  | "Boolean", .bool _ => true
  | "ID", .number n => n.toInt64?.isSome
  | "ID", .string _ => true
  | _, v =>
      if builtIns.contains name then false
      else match get? t name, v with
        | some (.enum values), .symbol s => values.contains s
        | some (.enum values), .string s => values.contains s
        | some .scalar, _ => true
        | _, _ => false

/-- Whether the type is a scalar that takes values of every form. -/
def isOpenScalar (t : TypeTable) (name : String) : Bool :=
  match get? t name with
  | some .scalar => !builtIns.contains name
  | _ => false

def inputsOf (t : TypeTable) (name : String) : Option (List Schema.Input) :=
  match get? t name with
  | some (.input fields) => some fields
  | _ => none

/-- A field that must be given: it has no default and does not take null. -/
def isRequired (i : Schema.Input) : Bool := i.type.isNonNull && i.default?.isNone

def givesRequired (inputs : List Schema.Input) (given : List String) : Bool :=
  inputs.all fun i => !isRequired i || given.contains i.name

def itemType? : TypeRef → Option TypeRef
  | .list item => some item
  | .nonNull type => itemType? type
  | .named _ => none

mutual

/-- Whether a value may stand where the type is asked for. One value may stand for a list. -/
def accepts (t : TypeTable) (type : TypeRef) : Literal → Bool
  | .null => !type.isNonNull
  | .list items =>
      match itemType? type with
      | some item => acceptsItems t item items
      | none => t.isOpenScalar type.base
  | .object fields =>
      match t.inputsOf type.base with
      | some inputs =>
          givesRequired inputs (fields.map (·.1)) && acceptsFields t inputs fields
      | none => t.isOpenScalar type.base
  | .bool b => t.acceptsScalar type.base (.bool b)
  | .number n => t.acceptsScalar type.base (.number n)
  | .string s => t.acceptsScalar type.base (.string s)
  | .symbol s => t.acceptsScalar type.base (.symbol s)
  | .variable _ => false

def acceptsItems (t : TypeTable) (item : TypeRef) : List Literal → Bool
  | [] => true
  | v :: rest => accepts t item v && acceptsItems t item rest

def acceptsFields (t : TypeTable) (inputs : List Schema.Input) :
    List (String × Literal) → Bool
  | [] => true
  | (k, v) :: rest =>
      (match inputs.find? (·.name = k) with
        | some i => accepts t i.type v
        | none => false) && acceptsFields t inputs rest

end

end TypeTable

end Service

namespace Query

open Service

/-- Whether a variable of type `given` may stand where `wanted` is asked for. -/
def fits (wanted given : TypeRef) : Bool :=
  match wanted, given with
  | .nonNull w, .nonNull g => fits w g
  | .named w, .nonNull g => fits (.named w) g
  | .named w, .named g => w = g
  | .list w, .nonNull g => fits (.list w) g
  | .list w, .list g => fits w g
  | _, _ => false

/-- A variable and the type that is asked for in its place. -/
abbrev Usage := String × TypeRef

mutual

/-- The variables of a value that stands where `type` is asked for, if the types of their places
are known. -/
def usages (t : TypeTable) (type : TypeRef) : Literal → List Usage
  | .variable name => [(name, type)]
  | .list items =>
      match type with
      | .list item => itemUsages t item items
      | .nonNull (.list item) => itemUsages t item items
      | _ => []
  | .object fields =>
      match type with
      | .named name => fieldUsages t ((t.inputsOf name).getD []) fields
      | .nonNull (.named name) => fieldUsages t ((t.inputsOf name).getD []) fields
      | _ => []
  | _ => []

def itemUsages (t : TypeTable) (item : TypeRef) : List Literal → List Usage
  | [] => []
  | v :: rest => usages t item v ++ itemUsages t item rest

def fieldUsages (t : TypeTable) (inputs : List Schema.Input) :
    List (String × Literal) → List Usage
  | [] => []
  | (k, v) :: rest =>
      (match inputs.find? (·.name = k) with
        | some i => usages t i.type v
        | none => []) ++ fieldUsages t inputs rest

end

/-- Arguments are declared, given once, of their types, and none that is required is missing. -/
def validArguments (t : TypeTable) (given : Dict Literal) (inputs : List Schema.Input)
    (arguments : List (String × Literal)) : Bool :=
  decide (arguments.map (·.1)).Nodup &&
  TypeTable.givesRequired inputs (arguments.map (·.1)) &&
  arguments.all fun (name, v) =>
    match inputs.find? (·.name = name) with
    | none => false
    | some i =>
        match v.substitute (Dict.get? given) with
        | .ok v => t.accepts i.type v
        | .error _ => true

def argumentUsages (t : TypeTable) (inputs : List Schema.Input)
    (arguments : List (String × Literal)) : List Usage :=
  fieldUsages t inputs arguments

/-- The directives of one place of a request: known there, and each used once. -/
def validDirectives (t : TypeTable) (given : Dict Literal) (location : String)
    (directives : List Directive) : Bool :=
  decide (directives.map (·.name)).Nodup &&
  directives.all fun d =>
    match knownDirectives.find? (·.name = d.name) with
    | none => false
    | some known =>
        known.locations.contains location && validArguments t given known.arguments d.arguments

def directiveInputs (d : Directive) : List Schema.Input :=
  ((knownDirectives.find? (·.name = d.name)).map (·.arguments)).getD []

def directiveUsages (t : TypeTable) (directives : List Directive) : List Usage :=
  directives.flatMap fun d => argumentUsages t (directiveInputs d) d.arguments

def directiveVariables (directives : List Directive) : List String :=
  directives.flatMap fun d => Literal.fieldVariables d.arguments

mutual

/-- What a selection set selects directly, fragments counted in: each field with the type that
its fragment is for. -/
def Piece.outputs (on : Option String) :
    Piece → List (Option String × String × String × List (String × Literal))
  | .field key name arguments _ _ => [(on, key, name, arguments)]
  | .group _ on _ children => outputsOf on children

def outputsOf (on : Option String) :
    List Piece → List (Option String × String × String × List (String × Literal))
  | [] => []
  | p :: rest => p.outputs on ++ outputsOf on rest

end

def sameArguments (xs ys : List (String × Literal)) : Bool :=
  xs.length == ys.length && xs.all fun (k, v) =>
    match Dict.get? ys k with
    | some w => v.same w
    | none => false

/-- Two fields under one key are the same field with the same arguments. -/
def mergeable (ps : List Piece) : Bool :=
  let outputs := outputsOf none ps
  outputs.all fun (on, key, name, arguments) =>
    match outputs.find? fun (on', key', _, _) => on' = on && key' = key with
    | some (_, _, name', arguments') => name' = name && sameArguments arguments' arguments
    | none => true

mutual

/-- Whether a piece may stand in a selection on the type. -/
def Piece.isValid (t : TypeTable) (given : Dict Literal) (type : String) : Piece → Bool
  | .field _ name arguments directives children =>
      if name = "__typename" then true
      else match t.field? type name with
        | none => false
        | some f =>
            validArguments t given f.arguments arguments &&
            validDirectives t given "FIELD" directives &&
            (t.isLeaf f.type.base == children.isEmpty) &&
            mergeable children && allValid t given f.type.base children
  | .group fragment on directives children =>
      (on.isNone || on = some type) &&
      validDirectives t given
        (if fragment.isSome then "FRAGMENT_SPREAD" else "INLINE_FRAGMENT") directives &&
      mergeable children && allValid t given type children

def allValid (t : TypeTable) (given : Dict Literal) (type : String) : List Piece → Bool
  | [] => true
  | p :: rest => p.isValid t given type && allValid t given type rest

end

mutual

/-- The variables in a piece. A field that asks for a type's name has none. -/
def Piece.variableNames : Piece → List String
  | .field _ name arguments directives children =>
      if name = "__typename" then []
      else
        Literal.fieldVariables arguments ++ directiveVariables directives ++ variablesOf children
  | .group _ _ directives children => directiveVariables directives ++ variablesOf children

def variablesOf : List Piece → List String
  | [] => []
  | p :: rest => p.variableNames ++ variablesOf rest

end

mutual

def Piece.usages (t : TypeTable) (type : String) : Piece → List Usage
  | .field _ name arguments directives children =>
      match t.field? type name with
      | none => []
      | some f =>
          argumentUsages t f.arguments arguments ++ directiveUsages t directives ++
            usagesOf t f.type.base children
  | .group _ _ directives children => directiveUsages t directives ++ usagesOf t type children

/-- The variables in pieces that stand in a selection on the type, with the types asked for. -/
def usagesOf (t : TypeTable) (type : String) : List Piece → List Usage
  | [] => []
  | p :: rest => p.usages t type ++ usagesOf t type rest

end

/-- The type that a variable counts as. A default keeps it from being null. -/
def Variable.countsAs (v : Variable) : TypeRef :=
  if v.default?.isSome && !v.type.isNonNull then .nonNull v.type else v.type

/-- A variable is of a type that takes input, and its default is one of its values. -/
def Variable.isValid (t : TypeTable) (v : Variable) : Bool :=
  ((t.get? v.type.base).map (·.isInput)).getD false &&
  match v.default? with
  | none => true
  | some d => !v.type.isNonNull && t.accepts v.type d

/-- The variables are declared once each, and those that are declared are those that are used,
each where its type fits. -/
def validVariables (t : TypeTable) (declared : List Variable) (used : List String)
    (usages : List Usage) : Bool :=
  decide (declared.map (·.name)).Nodup &&
  declared.all (fun v => v.isValid t && used.contains v.name) &&
  used.all (fun n => declared.any (·.name = n)) &&
  usages.all fun (n, wanted) =>
    match declared.find? (·.name = n) with
    | some v => fits wanted v.countsAs
    | none => true

def Operation.root? (s : TypeSystem) (o : Operation) : Option String :=
  match o.kind with
  | .query => some "Query"
  | .mutation => if s.hasMutation then some "Mutation" else none
  | .subscription => none

def Operation.isValid (s : TypeSystem) (given : Dict Literal) (o : Operation)
    (pieces : List Piece) : Bool :=
  match o.root? s with
  | none => false
  | some root =>
      o.directives.isEmpty && mergeable pieces && allValid s.types given root pieces &&
      validVariables s.types o.declared (variablesOf pieces) (usagesOf s.types root pieces)

/-- Every operation is valid, and every fragment is used by one. -/
def Document.isValid (s : TypeSystem) (given : Dict Literal) (d : Document) : Bool :=
  match d.operations.mapM fun o => (o.pieces? d).map fun ps => (o, ps) with
  | none => false
  | some operations =>
      operations.all (fun (o, ps) => o.isValid s given ps) &&
      d.fragments.all fun f =>
        f.directives.isEmpty && operations.any fun (_, ps) => (fragmentsOf ps).contains f.name

end Query

end EntityGraph
