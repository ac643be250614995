/-
# A backend chosen at run time

One handle for all the backends of this library, so that a program can choose among
them while it runs. A bare backend has only the rows of another in memory: no name of
its own, no full scans and no texts.

Key definitions: `Host`, `Host.producer`, `Host.backend`, `Host.memory?`.
-/
import SeqQuery.Backend.Null
import SeqQuery.Backend.Scripted

namespace SeqQuery

variable {σ : Type}

/-- A handle of any of the backends. -/
inductive Host where
  | null
  | memory (m : Memory)
  | bare (m : Memory)
  | scripted (s : Scripted)

namespace Host

/-- The rows in memory behind a handle. -/
def memory? : Host → Option Memory
  | .null => none
  | .memory m | .bare m => some m
  | .scripted s => some s.memory

/-- The items that an iteration yields. -/
def iterate (h : Host) (q : Query Host σ) : Except QueryError (List Item) :=
  match h with
  | .null => .error (.notSupported .noRows)
  | .memory m | .bare m => (m.run q).map (·.map .ok)
  | .scripted s => s.iterate q

/-- The text of a query, alone or with an aggregate. -/
def text? (h : Host) (q : Query Host σ) (aggregate : Option Aggregate) : Option String :=
  match h, aggregate with
  | .memory m, none => some (m.text q)
  | .scripted s, aggregate => s.text? q aggregate
  | _, _ => none

/-- What the chosen backend offers. -/
def producer : Producer Host σ where
  name
    | .null => "null"
    | .memory m => m.name
    | .bare _ => "query"
    | .scripted s => s.memory.name
  allowsFullScans
    | .memory m => m.allowsFullScans
    | .scripted s => s.memory.allowsFullScans
    | _ => false
  iterate q := q.backend.iterate q
  render? q aggregate := q.backend.text? q aggregate

/-- Answers an aggregate from a script if the handle has one that knows it, and else in
a given way. -/
def answerOr (h : Host) (otherwise : Run Host σ Value) (aggregate : Aggregate) :
    Run Host σ Value :=
  match h with
  | .scripted s => s.answerOr otherwise aggregate
  | _ => otherwise

/-- The first row of a sorted query. -/
def firstRow (q : Query Host σ) : Run Host σ Value :=
  q.backend.answerOr (producer.answer (producer.readAggregate · .first) q .first) .first

/-- The first row of a sorted query, waited for. -/
def firstRowLater (token : Token) (q : Query Host σ) : Run Host σ Value :=
  q.backend.answerOr
    (producer.answerLater token (producer.awaitAggregate token · .first) q .first) .first

/-- The chosen backend. -/
def backend : Backend Host σ where
  toProducer := producer
  aggregate q aggregate := q.backend.answerOr (producer.answer firstRow q aggregate) aggregate
  aggregateLater token q aggregate :=
    q.backend.answerOr (producer.answerLater token (firstRowLater token) q aggregate) aggregate

end Host
end SeqQuery
