/-
# The sort order of values

Rows are sorted by an order in which null comes first. Numbers of all widths compare
as numbers, texts by code point, false before true, and records and lists item by
item with the shorter one first. Values that have no order between them count as
equal.

Key definitions: `Value.cmp`, `Value.compareFloat?`.
-/
import SeqQuery.Value

namespace SeqQuery.Value

/-- The order of two floating-point numbers; a NaN has none. -/
def compareFloat? (x y : Float) : Option Ordering :=
  if x < y then some .lt else if x == y then some .eq else if y < x then some .gt else none

/-- The order of two numbers of any width. Two integers compare exactly, all others
as doubles. -/
def compareNumbers? (a b : Value) : Option Ordering :=
  match a.int64?, b.int64? with
  | some m, some n => some (compare m.toInt n.toInt)
  | _, _ =>
    match a.float?, b.float? with
    | some x, some y => compareFloat? x y
    | _, _ => none

mutual

/-- The sort order of two values. -/
def cmp : Value → Value → Ordering
  | .null, .null => .eq
  | .null, _ => .lt
  | _, .null => .gt
  | .string a, .string b => compare a b
  | .bool a, .bool b => compare a b
  | .timestamp a, .timestamp b => compare a.toInt b.toInt
  | .record _ as, .record _ bs => cmpAll as bs
  | .list as, .list bs => cmpAll as bs
  | a, b => (compareNumbers? a b).getD .eq

/-- The sort order of two lists of values: that of the first items that differ, and
else the shorter list comes first. -/
def cmpAll : List Value → List Value → Ordering
  | [], [] => .eq
  | [], _ :: _ => .lt
  | _ :: _, [] => .gt
  | a :: as, b :: bs => (cmp a b).then (cmpAll as bs)

end

end SeqQuery.Value
