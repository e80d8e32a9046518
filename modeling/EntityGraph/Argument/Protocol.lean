import EntityGraph.Argument.Operator
import EntityGraph.Options
import EntityGraph.SchemaError

/-!
The names of arguments. A filter argument is a field's name followed by the suffix of its
operator; four reserved names order and page. A name is read back by its longest suffix, and a
name that means nothing is ignored.
-/

namespace EntityGraph

/-- The text before the suffix, if `s` ends in it. -/
def Text.stripEnd? (s suffix : String) : Option String :=
  let cs := s.toList
  let es := suffix.toList
  if es.isSuffixOf cs then some (String.ofList (cs.take (cs.length - es.length))) else none

/-- What the name of an argument means. -/
inductive ArgumentMeaning where
  | filter (field : String) (op : FilterOp)
  | paging (arg : PagingArg)
  | ignored
deriving DecidableEq, Repr

/-- The enabled operators and reserved arguments with their names. -/
structure ArgumentProtocol where
  operators : List (FilterOp × String)
  paging : List (PagingArg × String)
deriving DecidableEq, Repr

namespace ArgumentProtocol

def standard : ArgumentProtocol :=
  { operators := FilterOp.all.map fun op => (op, op.defaultSuffix)
    paging := PagingArg.all.map fun arg => (arg, arg.defaultName) }

def nameOf (setting : OperatorSetting) (usual : String) : Option String :=
  match setting with
  | .enabled true => some usual
  | .enabled false => none
  | .renamed name => some name

/-- Names the items that are enabled; a name must not be empty and not come twice. -/
def collect {α : Type} (name : α → Option String) :
    List (α × String) → List α → Except SchemaError (List (α × String))
  | done, [] => .ok done
  | done, x :: rest =>
      match name x with
      | none => collect name done rest
      | some s =>
          if s.isEmpty || done.any (·.2 = s) then .error (.invalidSuffix s)
          else collect name (done ++ [(x, s)]) rest

def ofOptions (o : QueryOptions) : Except SchemaError ArgumentProtocol := do
  let operators ←
    collect (fun (op : FilterOp) => nameOf (o.setting op.optionKey) op.defaultSuffix)
      [] FilterOp.all
  let paging ←
    collect (fun (arg : PagingArg) => nameOf (o.setting arg.defaultName) arg.defaultName)
      [] PagingArg.all
  return ⟨operators, paging⟩

def suffix? (p : ArgumentProtocol) (op : FilterOp) : Option String := p.operators.lookup op

def pagingName? (p : ArgumentProtocol) (arg : PagingArg) : Option String := p.paging.lookup arg

def encode (p : ArgumentProtocol) (field : String) (op : FilterOp) : Option String :=
  (p.suffix? op).map (field ++ ·)

/-- The operators, those with long suffixes first. -/
def byLength (p : ArgumentProtocol) : List (FilterOp × String) :=
  p.operators.mergeSort fun a b => b.2.utf8ByteSize ≤ a.2.utf8ByteSize

/-- The first suffix that fits decides; nothing is left of a name that is a suffix. -/
def decodeSuffix (key : String) : List (FilterOp × String) → ArgumentMeaning
  | [] => .ignored
  | (op, suffix) :: rest =>
      match Text.stripEnd? key suffix with
      | some field => if field.isEmpty then .ignored else .filter field op
      | none => decodeSuffix key rest

def decode (p : ArgumentProtocol) (key : String) : ArgumentMeaning :=
  match p.paging.find? (·.2 = key) with
  | some (arg, _) => .paging arg
  | none => decodeSuffix key p.byLength

end ArgumentProtocol

end EntityGraph
