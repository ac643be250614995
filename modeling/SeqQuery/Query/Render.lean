/-
# The text of a query

A backend may know how to write a query, alone or with an aggregate. Where it does not
know how to write an aggregate, the query that would be read for it is written
instead; where it cannot write that either, the text is the backend's name.

Key definitions: `Backend.renderAggregate?`, `Query.render`.
-/
import SeqQuery.Query.Backend

namespace SeqQuery

variable {β σ : Type}

namespace Backend

/-- What the backend writes, unless it is nothing. -/
def ask (b : Backend β σ) (q : Query β σ) (aggregate : Option Aggregate) : Option String :=
  (b.render? q aggregate).filter (· ≠ "")

/-- The text of the query that would be read for an aggregate. -/
def renderRead? (b : Backend β σ) (q : Query β σ) (aggregate : Aggregate) : Option String :=
  match aggregate with
  | .notAny => b.ask q (some .any)
  | .any | .first | .firstOrDefault => b.ask ((q.takeRows 1).of q).keepRepeats none
  | .single | .singleOrDefault => b.ask ((q.takeRows 2).of q) none
  | .count => if b.allowsFullScans q.backend then b.ask q none else none
  | .average | .minimum | .maximum | .sum => none

/-- The text of a query and an aggregate of it, or of what would be read for it. -/
def renderAggregate? (b : Backend β σ) (q : Query β σ) (aggregate : Aggregate) : Option String :=
  match b.ask q (some aggregate) with
  | some text => some text
  | none =>
    let sorted :=
      match q.asFirst? aggregate with
      | .ok (some r) => (b.ask r (some .first)).or (b.renderRead? r .first)
      | _ => none
    sorted.or (b.renderRead? q aggregate)

end Backend

/-- The text of a query, and of an aggregate of it if one is given. -/
def Query.render (b : Backend β σ) (q : Query β σ) (aggregate : Option Aggregate) : String :=
  let name := b.name q.backend
  match aggregate with
  | none => (b.ask q none).getD name
  | some aggregate => (b.renderAggregate? q aggregate).getD (aggregate.name ++ ":" ++ name)

end SeqQuery
