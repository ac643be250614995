/-
# Decorated queries

A query may carry something along that composition does not touch, such as the token
of a suspendable run. An operation that leaves the query alone leaves the decorated
query alone.

Key definitions: `Decorated`, `Decorated.step`, `Decorated.toValuesLater`,
`Decorated.executeLater`.
-/
import SeqQuery.Query.Execute

namespace SeqQuery

/-- A query and what it carries along. -/
structure Decorated (β σ δ : Type) where
  query : Query β σ
  decoration : δ

variable {β σ δ : Type}

namespace Decorated

/-- Applies an operation to the query and keeps the decoration. -/
def step (d : Decorated β σ δ) (s : Query.Step σ) :
    Except QueryError (Revision (Decorated β σ δ)) :=
  (d.query.step s).map (·.map fun q => ⟨q, d.decoration⟩)

/-- The rows of a query that carries its token. -/
def toValuesLater (b : Backend β σ) (d : Decorated β σ Token) : Run β σ (List Value) :=
  d.query.toValuesLater b d.decoration

/-- The answer to a terminal of a query that carries its token. -/
def executeLater (b : Backend β σ) (d : Decorated β σ Token) (terminal : Terminal) :
    Run β σ Value :=
  d.query.executeLater b d.decoration terminal

end Decorated
end SeqQuery
