import EntityGraph.Json.Text
import EntityGraph.Argument.Operator
import EntityGraph.Text.Case

/-!
Comparing the values of rows: equality and order across the two kinds of numbers, the order by
which rows are sorted, the meaning of the filter operators, and the key under which rows join.
-/

namespace EntityGraph

namespace Json

/-- Numbers are equal when their doubles are; everything else is compared by structure. -/
def equal : Json → Json → Bool
  | .number a, .number b => a.toDouble.same b.toDouble
  | a, b => same a b

/-- Only numbers, texts and booleans have an order, each among themselves. -/
def compare? : Json → Json → Option Ordering
  | .number a, .number b => some (a.toDouble.compare b.toDouble)
  | .string a, .string b => some (Ord.compare a b)
  | .bool a, .bool b => some (Ord.compare a.toNat b.toNat)
  | _, _ => none

/-- Null comes first; values without an order between them count as equal. -/
def sortOrder (a b : Json) : Ordering :=
  match a.isNull, b.isNull with
  | true, true => .eq
  | true, false => .lt
  | false, true => .gt
  | false, false => (compare? a b).getD .eq

def asList : Json → List Json
  | .array items => items
  | v => [v]

/-- The text under which a value joins with others. An integral double joins as its integer. -/
def joinKey : Json → Option String
  | .null => none
  | .number n =>
      match n.toInt64? with
      | some i => some (toString i)
      | none =>
          match n.toDouble.toInt? with
          | some i => if i.natAbs < Nat.pow 2 63 then some (toString i) else some n.text
          | none => some n.text
  | .string s => some ("s:" ++ s)
  | v => some v.text

end Json

namespace FilterOp

/-- Whether a value of a column passes the filter. Only the test for null lets null pass. -/
def holds (op : FilterOp) (column operand : Json) : Bool :=
  match op with
  | .isNull => column.isNull == operand.bool?.getD true
  | op =>
      if column.isNull then false
      else match op with
        | .isIn => operand.asList.any column.equal
        | .notIn => !operand.asList.any column.equal
        | .eq => column.equal operand
        | .notEq => !operand.isNull && !column.equal operand
        | .gt => column.compare? operand = some .gt
        | .gte => column.compare? operand = some .gt || column.compare? operand = some .eq
        | .lt => column.compare? operand = some .lt
        | .lte => column.compare? operand = some .lt || column.compare? operand = some .eq
        | .like =>
            match column, operand with
            | .string hay, .string needle => Text.contains hay needle
            | _, _ => false
        | .likeNoCase =>
            match column, operand with
            | .string hay, .string needle =>
                Text.occursIn (Text.lower needle.toList) (Text.lower hay.toList)
            | _, _ => false
        | .isNull => false

end FilterOp

end EntityGraph
