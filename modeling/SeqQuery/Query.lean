/-
# Queries

A query describes a sequence of rows that a backend has and what is to be done to
them: filter, sort, project, drop repeated rows, then skip some and keep some. The
filter, the sort keys and the row limits always speak of the rows as the backend has
them; a query has at most one projection, and only a projected query drops repeated
rows.

A query refers to its backend by a handle and carries a state that only the backend
understands.

Key definitions: `Source`, `Projection`, `Query`, `Query.ofBackend`,
`Query.elementTy`, `Query.activeTerms`.
-/
import SeqQuery.Query.Sorting
import SeqQuery.Query.Terms

namespace SeqQuery

/-- What is done to the rows of a backend before they are projected. -/
structure Source (β σ : Type) where
  backend : β
  state : Option σ
  origin : Ty
  predicate : Option Lambda
  skip : Nat
  take : Option Nat
  sorting : Option Sorting

/-- A projection of the rows, which may also drop repeated ones. -/
structure Projection where
  lambda : Lambda
  distinct : Bool

/-- A query. -/
structure Query (β σ : Type) where
  source : Source β σ
  projection : Option Projection

variable {β σ : Type}

namespace Source

/-- Whether rows are skipped or limited. -/
def hasRange (s : Source β σ) : Bool :=
  decide (0 < s.skip) || s.take.isSome

/-- Whether no row can be left. -/
def isEmpty (s : Source β σ) : Bool :=
  s.take == some 0

end Source

namespace Query

/-- All rows of a backend. -/
def ofBackend (backend : β) (origin : Ty) : Query β σ :=
  ⟨⟨backend, none, origin, none, 0, none, none⟩, none⟩

/-- The backend of a query. -/
def backend (q : Query β σ) : β := q.source.backend

/-- The state that the backend keeps in a query. -/
def state (q : Query β σ) : Option σ := q.source.state

/-- The type of the rows before they are projected. -/
def originTy (q : Query β σ) : Ty := q.source.origin

/-- The type of the rows of a query. -/
def elementTy (q : Query β σ) : Ty :=
  match q.projection with
  | none => q.source.origin
  | some p => p.lambda.returnTy

/-- The projection from the origin to the rows of the query. -/
def projector (q : Query β σ) : Option Lambda :=
  q.projection.map (·.lambda)

/-- Whether repeated rows are dropped. -/
def isDistinct (q : Query β σ) : Bool :=
  match q.projection with
  | none => false
  | some p => p.distinct

/-- Whether the query is known to have no rows. -/
def isEmpty (q : Query β σ) : Bool := q.source.isEmpty

/-- Whether rows are skipped or limited. -/
def hasRange (q : Query β σ) : Bool := q.source.hasRange

/-- Whether the query has sort keys. -/
def isOrdered (q : Query β σ) : Bool := q.source.sorting.isSome

/-- Whether the order is turned over. -/
def isReversed (q : Query β σ) : Bool :=
  match q.source.sorting with
  | none => false
  | some s => s.reversed

/-- The number of sort keys. -/
def orderCount (q : Query β σ) : Nat :=
  match q.source.sorting with
  | none => 0
  | some s => s.length

/-- The sort clauses, the one that sorts first in front. -/
def clauses (q : Query β σ) : List SortClause :=
  match q.source.sorting with
  | none => []
  | some s => s.clauses

/-- The same query over another source. -/
def withSource (q : Query β σ) (s : Source β σ) : Query β σ :=
  { q with source := s }

/-- The operations that are active. -/
def activeTerms (q : Query β σ) : Terms where
  skip := decide (0 < q.source.skip)
  take := q.source.take.isSome
  filter := q.source.predicate.isSome
  order := q.source.sorting.isSome
  select := q.projection.isSome
  distinct := q.isDistinct

/-- Whether any of the operations is active. -/
def hasAny (q : Query β σ) (terms : Terms) : Bool :=
  q.activeTerms.intersects terms

/-- Whether none but the operations is active. -/
def hasAtMost (q : Query β σ) (terms : Terms) : Bool :=
  terms.contains q.activeTerms

end Query
end SeqQuery
