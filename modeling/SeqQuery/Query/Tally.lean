/-
# Counts, sums and averages

A full scan counts the rows and adds them up, integers exactly in 64 bits and all
other numbers as doubles. The sum of integers is given back in the type of the rows,
and it is an error when it does not fit.

Key definitions: `Tally`, `Tally.add`, `Tally.finish`.
-/
import SeqQuery.Expr.Apply
import SeqQuery.Query.Error

namespace SeqQuery

/-- The count and the sums so far. -/
structure Tally where
  count : Int
  integers : Int
  floats : Float

namespace Tally

/-- Nothing counted. -/
def zero : Tally := ⟨0, 0, 0⟩

/-- The integer, or an error if it needs more than 64 bits. -/
def within64 (what : String) (n : Int) : Except QueryError Int :=
  if fits 64 n then .ok n else .error (.coercionFailure what "Int64")

/-- Counts a row and, unless only the count is asked for, adds it. -/
def add (aggregate : Aggregate) (element : Ty) (t : Tally) (v : Value) :
    Except QueryError Tally := do
  let count ← within64 "count" (t.count + 1)
  if aggregate = .count then .ok { t with count }
  else if element.isInteger then
    match v.int64? with
    | none => .error (.coercionFailure v.typeName "Int64")
    | some n => do
      let integers ← within64 "sum" (t.integers + n.toInt)
      .ok { t with count, integers }
  else
    match v.float? with
    | none => .error (.coercionFailure v.typeName "Float64")
    | some x => .ok { t with count, floats := t.floats + x }

/-- The sum of the rows in their type. -/
def sum (element : Ty) (t : Tally) : Except QueryError Value :=
  if element.isInteger then
    ((Value.int64 (Int64.ofInt t.integers)).convertChecked element).mapError .ofValue
  else ((Value.float64 t.floats).convert element).mapError .ofValue

/-- The average of the rows, if there are any. -/
def average (element : Ty) (t : Tally) : Except QueryError Value :=
  if t.count = 0 then .error .emptyResult
  else
    let total := if element.isInteger then (Int64.ofInt t.integers).toFloat else t.floats
    let mean := total / (Int64.ofInt t.count).toFloat
    .ok (if element = .float32 then .float32 (nearestSingle mean) else .float64 mean)

/-- The answer after all rows. -/
def finish (aggregate : Aggregate) (element : Ty) (t : Tally) : Except QueryError Value :=
  match aggregate with
  | .count => .ok (.int64 (Int64.ofInt t.count))
  | .sum => t.sum element
  | _ => t.average element

end Tally
end SeqQuery
