/-
# Rows in memory

A backend that holds its rows in a list. It filters them, sorts them, projects them,
drops repeated ones, and then skips and keeps as many as it is told, in this order.
Sorting is stable; of equal rows the first is kept. An error in any row ends the
iteration before its first item.

Key definitions: `Memory`, `Memory.run`, `Memory.text`, `compareKeys`, `dropRepeats`,
`Memory.producer`.
-/
import SeqQuery.Query.Backend

namespace SeqQuery

variable {β σ : Type}

/-- Rows in memory. `now` is the time at which expressions are evaluated. -/
structure Memory where
  name : String
  origin : Ty
  rows : List Value
  allowsFullScans : Bool
  now : Int64

/-- The order of two rows by their keys, which are given with whether each ascends. -/
def compareKeys : List Bool → List Value → List Value → Ordering
  | ascending :: rest, a :: as, b :: bs =>
    let o := a.cmp b
    (if ascending then o else o.swap).then (compareKeys rest as bs)
  | _, _, _ => .eq

/-- Keeps the first of equal rows. -/
def dropRepeats (rows : List Value) : List Value :=
  rows.foldl (fun kept v => if kept.any (· == v) then kept else kept ++ [v]) []

namespace Memory

/-- The rows that pass a filter, if there is one. -/
def filterRows (now : Int64) (p : Option Lambda) (rows : List Value) :
    Except QueryError (List Value) :=
  match p with
  | none => .ok rows
  | some p => rows.filterM fun v => (p.test now v).mapError .ofExpr

/-- A row with its sort keys. -/
def keyed (now : Int64) (clauses : List SortClause) (v : Value) :
    Except QueryError (List Value × Value) := do
  let keys ← clauses.mapM fun c => (c.key.apply now v).mapError .ofExpr
  .ok (keys, v)

/-- The rows sorted by their keys. -/
def sortRows (now : Int64) (clauses : List SortClause) (rows : List Value) :
    Except QueryError (List Value) := do
  let withKeys ← rows.mapM (keyed now clauses)
  let directions := clauses.map (·.ascending)
  .ok ((withKeys.mergeSort fun a b => compareKeys directions a.1 b.1 != .gt).map (·.2))

/-- The rows projected, if there is a projection. -/
def projectRows (now : Int64) (f : Option Lambda) (rows : List Value) :
    Except QueryError (List Value) :=
  match f with
  | none => .ok rows
  | some f => rows.mapM fun v => (f.apply now v).mapError .ofExpr

/-- The rows between the ones that are skipped and the limit. -/
def window {α : Type} (skip : Nat) (take : Option Nat) (rows : List α) : List α :=
  match take with
  | none => rows.drop skip
  | some n => (rows.drop skip).take n

/-- The rows of a query. -/
def run (m : Memory) (q : Query β σ) : Except QueryError (List Value) := do
  let kept ← filterRows m.now q.source.predicate m.rows
  let sorted ← sortRows m.now q.clauses kept
  let projected ← projectRows m.now q.projector sorted
  let unique := if q.isDistinct then dropRepeats projected else projected
  .ok (window q.source.skip q.source.take unique)

/-- The parts of the text of a query. -/
def textParts (m : Memory) (q : Query β σ) : List String :=
  ["from " ++ m.name]
    ++ (q.source.predicate.map fun p => "where " ++ p.text).toList
    ++ (if q.clauses.isEmpty then []
      else ["order by " ++ String.intercalate ", " (q.clauses.map SortClause.text)])
    ++ (q.projector.map fun f =>
      (if q.isDistinct then "select distinct " else "select ") ++ f.text).toList
    ++ (if 0 < q.source.skip then ["skip " ++ toString q.source.skip] else [])
    ++ (q.source.take.map fun n => "take " ++ toString n).toList

/-- The text of a query. -/
def text (m : Memory) (q : Query β σ) : String :=
  String.intercalate " " (m.textParts q)

/-- A query over all rows. -/
def query (m : Memory) : Query Memory σ :=
  .ofBackend m m.origin

/-- What rows in memory offer as a backend. A query with an aggregate has no text. -/
def producer : Producer Memory σ where
  name m := m.name
  allowsFullScans m := m.allowsFullScans
  iterate q := (q.backend.run q).map (·.map .ok)
  render? q
    | none => some (q.backend.text q)
    | some _ => none

/-- The backend. -/
def backend : Backend Memory σ :=
  producer.toBackend

end Memory
end SeqQuery
