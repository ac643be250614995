/-
# Scripted backends

A backend to try a query on. It has rows in memory and follows a script: it may fail
at one item, know some aggregates without reading, and write what it is told to.

Key definitions: `Scripted`, `Scripted.iterate`, `Scripted.text?`, `Scripted.answerOr`.
-/
import SeqQuery.Backend.Memory

namespace SeqQuery

variable {β σ : Type}

/-- What a scripted backend writes: the text of the rows in memory for the query
alone, or a fixed text. -/
inductive ScriptedText where
  | ofMemory
  | fixed (text : String)

/-- A script over rows in memory: the item at which to fail, the aggregates that are
known, and the texts of a query, alone or with an aggregate. -/
structure Scripted where
  memory : Memory
  failAt : Option Nat
  known : Aggregate → Option Value
  texts : Option Aggregate → Option ScriptedText

namespace Scripted

/-- The items of an iteration, an error standing at the place of failure. -/
def items (s : Scripted) (rows : List Value) : List Item :=
  rows.mapIdx fun i v =>
    if s.failAt = some i then .error (.backend ("row " ++ toString i ++ " failed")) else .ok v

/-- The iteration of a script. -/
def iterate (s : Scripted) (q : Query β σ) : Except QueryError (List Item) :=
  (s.memory.run q).map s.items

/-- The text that a script gives. -/
def text? (s : Scripted) (q : Query β σ) (aggregate : Option Aggregate) : Option String :=
  (s.texts aggregate).map fun
    | .ofMemory => s.memory.text q
    | .fixed text => text

/-- Answers an aggregate that the script knows at once, and any other in a given way. -/
def answerOr (s : Scripted) (otherwise : Run β σ Value) (aggregate : Aggregate) : Run β σ Value :=
  match s.known aggregate with
  | some v => .ofOutcome (.ok v)
  | none => otherwise

end Scripted
end SeqQuery
