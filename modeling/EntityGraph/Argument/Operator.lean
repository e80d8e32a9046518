import EntityGraph.Entity.Basic
import EntityGraph.Json.Basic

/-!
Filter operators and the four reserved arguments for ordering and paging.
-/

namespace EntityGraph

inductive FilterOp where
  | isIn
  | notIn
  | eq
  | notEq
  | gt
  | gte
  | lt
  | lte
  | like
  | likeNoCase
  | isNull
deriving DecidableEq, Repr

namespace FilterOp

/-- In the order in which their arguments are offered. -/
def all : List FilterOp :=
  [.isIn, .notIn, .eq, .notEq, .gt, .gte, .lt, .lte, .like, .likeNoCase, .isNull]

def defaultSuffix : FilterOp → String
  | .isIn => "In"
  | .notIn => "NotIn"
  | .eq => "Eq"
  | .notEq => "NotEq"
  | .gt => "Gt"
  | .gte => "Gte"
  | .lt => "Lt"
  | .lte => "Lte"
  | .like => "Like"
  | .likeNoCase => "LikeNoCase"
  | .isNull => "IsNull"

def optionKey : FilterOp → String
  | .isIn => "in"
  | .notIn => "notIn"
  | .eq => "eq"
  | .notEq => "notEq"
  | .gt => "gt"
  | .gte => "gte"
  | .lt => "lt"
  | .lte => "lte"
  | .like => "like"
  | .likeNoCase => "likeNoCase"
  | .isNull => "isNull"

def takesList : FilterOp → Bool
  | .isIn | .notIn => true
  | _ => false

/-- The form of the operand that the operator works on; none if the argument says nothing. A
list operator takes a single value as a list of one. -/
def normalize (op : FilterOp) (v : Json) : Option Json :=
  match op with
  | .isNull =>
      match v with
      | .bool b => some (.bool b)
      | .null => some (.bool true)
      | _ => none
  | op =>
      match v with
      | .null => none
      | .array items => if op.takesList then some (.array items) else none
      | v => if op.takesList then some (.array [v]) else some v

end FilterOp

inductive PagingArg where
  | orderBy
  | orderByDesc
  | limit
  | offset
deriving DecidableEq, Repr

namespace PagingArg

def all : List PagingArg := [.orderBy, .orderByDesc, .limit, .offset]

/-- The argument's usual name, which is also its name in the options. -/
def defaultName : PagingArg → String
  | .orderBy => "orderBy"
  | .orderByDesc => "orderByDesc"
  | .limit => "limit"
  | .offset => "offset"

def typeName : PagingArg → String
  | .orderBy | .orderByDesc => "String"
  | .limit | .offset => "Int"

end PagingArg

end EntityGraph
