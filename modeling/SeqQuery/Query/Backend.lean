/-
# Backends

A backend runs queries. All that it must have is a way to iterate a query; aggregates
are then answered by reading rows. The first row, a single row and the question
whether there are any need at most two rows; a count, a sum or an average needs all of
them and is refused unless the backend allows full scans. A backend may instead
answer aggregates in a way of its own.

A run is an outcome together with the iterations that were started for it and the
number of items taken from each.

Key definitions: `Scan`, `Run`, `Producer`, `Producer.readAggregate`,
`Producer.answer`, `Backend`, `Producer.toBackend`.
-/
import SeqQuery.Query.Resolve
import SeqQuery.Query.Rows
import SeqQuery.Query.Tally

namespace SeqQuery

variable {β σ : Type}

/-- An iteration that was started, and how many items were taken from it. -/
structure Scan (β σ : Type) where
  query : Query β σ
  taken : Nat

/-- An outcome and the iterations that were started for it. -/
structure Run (β σ α : Type) where
  outcome : Except QueryError α
  scans : List (Scan β σ)

namespace Run

variable {α γ : Type}

/-- An outcome for which nothing was iterated. -/
def ofOutcome (outcome : Except QueryError α) : Run β σ α := ⟨outcome, []⟩

/-- Goes on with the result of a run, without iterating further. -/
def andThen (r : Run β σ α) (f : α → Except QueryError γ) : Run β σ γ :=
  ⟨r.outcome.bind f, r.scans⟩

/-- The number of items taken in all iterations. -/
def taken (r : Run β σ α) : Nat :=
  r.scans.foldl (fun n scan => n + scan.taken) 0

end Run

/-- What every backend has. `iterate` gives all items that an iteration would yield,
although a reader may leave before the end; `render?` may give the text of a query and
an aggregate, or of a query alone. -/
structure Producer (β σ : Type) where
  name : β → String
  allowsFullScans : β → Bool
  iterate : Query β σ → Except QueryError (List Item)
  render? : Query β σ → Option Aggregate → Option String

namespace Producer

variable {α : Type}

/-- Iterates a query and reads from it. -/
def read (p : Producer β σ) (q : Query β σ) (reader : List Item → Reading α) : Run β σ α :=
  match p.iterate q with
  | .error e => ⟨.error e, [⟨q, 0⟩]⟩
  | .ok items => ⟨(reader items).outcome, [⟨q, (reader items).taken⟩]⟩

/-- The answer for the first or only row that was looked for. -/
def rowOr (absent : Except QueryError Value) : Option Value → Except QueryError Value
  | some v => .ok v
  | none => absent

/-- Answers an aggregate by reading rows, with the readers given for the first row, the
only row and all rows. -/
def readWith (p : Producer β σ) (first only : List Item → Reading (Option Value))
    (all : (Tally → Value → Except QueryError Tally) → Tally → List Item → Reading Tally)
    (q : Query β σ) (aggregate : Aggregate) : Run β σ Value :=
  let one := ((q.takeRows 1).of q).keepRepeats
  let two := (q.takeRows 2).of q
  let zero : Except QueryError Value := .ok q.elementTy.zero
  match aggregate with
  | .first => (p.read one first).andThen (rowOr (.error .emptyResult))
  | .firstOrDefault => (p.read one first).andThen (rowOr zero)
  | .single => (p.read two only).andThen (rowOr (.error .emptyResult))
  | .singleOrDefault => (p.read two only).andThen (rowOr zero)
  | .any => (p.read one first).andThen fun row => .ok (.bool row.isSome)
  | .notAny => (p.read one first).andThen fun row => .ok (.bool row.isNone)
  | .count | .sum | .average =>
    if p.allowsFullScans q.backend then
      (p.read q (all (Tally.add aggregate q.elementTy) .zero)).andThen
        (Tally.finish aggregate q.elementTy)
    else .ofOutcome (.error (.notSupported (.fullScan aggregate)))
  | .minimum | .maximum => .ofOutcome (.error (.notSupported (.fullScan aggregate)))

/-- Answers an aggregate by reading rows. -/
def readAggregate (p : Producer β σ) : Query β σ → Aggregate → Run β σ Value :=
  p.readWith Rows.first Rows.only Rows.foldAll

/-- Answers an aggregate by waiting for rows. -/
def awaitAggregate (p : Producer β σ) (token : Token) : Query β σ → Aggregate → Run β σ Value :=
  p.readWith (Rows.awaitFirst token) (Rows.awaitOnly token) (Rows.awaitFold token)

/-- Answers an aggregate: at once for a query that is known to have no rows, through
`first` when the query can be sorted so that its first row is the answer, and else
through `direct`. -/
def answerBy (first direct : Query β σ → Run β σ Value) (q : Query β σ) (aggregate : Aggregate) :
    Run β σ Value :=
  match q.shortCircuit? aggregate (if aggregate = .count then .int64 else q.elementTy) with
  | some outcome => .ofOutcome outcome
  | none =>
    match q.asFirst? aggregate with
    | .error e => .ofOutcome (.error e)
    | .ok (some sorted) => first sorted
    | .ok none => direct q

/-- Answers an aggregate by reading rows, and by `first` where the first row of a sorted
query is the answer. -/
def answer (p : Producer β σ) (first : Query β σ → Run β σ Value) (q : Query β σ)
    (aggregate : Aggregate) : Run β σ Value :=
  answerBy first (p.readAggregate · aggregate) q aggregate

/-- Answers an aggregate by waiting for rows, and by `first` where the first row of a
sorted query is the answer. -/
def answerLater (p : Producer β σ) (token : Token) (first : Query β σ → Run β σ Value)
    (q : Query β σ) (aggregate : Aggregate) : Run β σ Value :=
  answerBy first (p.awaitAggregate token · aggregate) q aggregate

end Producer

/-- A backend: a producer of rows with its way to answer aggregates, blocking and
suspendable. -/
structure Backend (β σ : Type) extends Producer β σ where
  aggregate : Query β σ → Aggregate → Run β σ Value
  aggregateLater : Token → Query β σ → Aggregate → Run β σ Value

/-- The backend that answers every aggregate from the rows of a producer. -/
def Producer.toBackend (p : Producer β σ) : Backend β σ where
  toProducer := p
  aggregate := p.answer (p.answer (p.readAggregate · .first) · .first)
  aggregateLater token :=
    p.answerLater token (p.answerLater token (p.awaitAggregate token · .first) · .first)

end SeqQuery
