/-
# Resolving terminals

A terminal becomes an aggregate of a rewritten query: a predicate becomes a filter, a
selector a projection, the last row the first one of the reversed query, an index a
skip, membership an equality filter. Where the rewritten query is known to have no
rows, the answer needs no backend.

The least and the greatest row are the first of the rows sorted by themselves, so a
backend need only know how to sort; rows that are records of the backend have no such
order.

Key definitions: `Request`, `Resolution`, `Query.rewrite`, `Aggregate.ofNoRows`,
`Query.shortCircuit?`, `Query.resolve`, `Query.asFirst?`.
-/
import SeqQuery.Query.Compose

namespace SeqQuery

variable {β σ : Type}

/-- What is asked of a backend: an aggregate of a query, as a value of a type. The
query may be the very one that the terminal was asked of. -/
structure Request (β σ : Type) where
  query : Query β σ
  aggregate : Aggregate
  resultTy : Ty
  isSame : Bool

/-- What becomes of a terminal: a request to the backend, or an answer without it. -/
inductive Resolution (β σ : Type) where
  | ask (request : Request β σ)
  | done (value : Value)

/-- The answer that an aggregate has for no rows, as a value of a type. -/
def Aggregate.ofNoRows (aggregate : Aggregate) (resultTy : Ty) : Except QueryError Value :=
  match aggregate with
  | .count | .sum | .firstOrDefault | .singleOrDefault => .ok resultTy.zero
  | .any => .ok (.bool false)
  | .notAny => .ok (.bool true)
  | .first | .single | .average | .minimum | .maximum => .error .emptyResult

/-- The type of an average: single for singles and double for all other numbers. -/
def Ty.averageTy (element : Ty) : Ty :=
  if element = .float32 then .float32 else .float64

/-- The predicate that a row equals a value. -/
def Lambda.equals (v : Value) (ty : Ty) : Except ExprError Lambda := do
  let p := Param.own ty
  let constant ← Expr.mkConst v ty
  let body ← Expr.mkBinary (.equality .eq) (.param p) constant
  .ok ⟨p, body⟩

namespace Query

/-- The answer for a query that is known to have no rows. -/
def shortCircuit? (q : Query β σ) (aggregate : Aggregate) (resultTy : Ty) :
    Option (Except QueryError Value) :=
  if q.isEmpty then some (aggregate.ofNoRows resultTy) else none

/-- The rows that pass a predicate, if one is given. -/
def filterBy (q : Query β σ) (p : Option Lambda) : Except QueryError (Revision (Query β σ)) :=
  match p with
  | none => .ok .unchanged
  | some p => q.filter p

/-- The rows projected by a selector, if one is given. -/
def selectBy (q : Query β σ) (f : Option Lambda) : Except QueryError (Revision (Query β σ)) :=
  match f with
  | none => .ok .unchanged
  | some f => q.select f

/-- The rows that pass a predicate, the last one first. -/
def lastBy (q : Query β σ) (p : Option Lambda) : Except QueryError (Revision (Query β σ)) := do
  let revision ← q.filterBy p
  revision.andThen q reverse

/-- The rows from the one at an index on. -/
def fromIndex (q : Query β σ) (index : Index) : Except QueryError (Revision (Query β σ)) :=
  match index with
  | .fromStart n => .ok (q.skipRows n)
  | .fromEnd n =>
    if !q.isOrdered then .error (.invalidComposition .fromEndUnordered)
    else
      match n with
      | 0 => .ok (q.takeRows 0)
      | k + 1 => do
        let revision ← q.reverse
        revision.andThen q fun reversed => .ok (reversed.skipRows k)

/-- A request for an aggregate of a revised query. -/
def request (q : Query β σ) (aggregate : Aggregate) (resultTy : Ty)
    (revision : Revision (Query β σ)) : Request β σ :=
  ⟨revision.of q, aggregate, resultTy, revision.isUnchanged⟩

/-- A request for an aggregate that is a row or like one. -/
def rowRequest (q : Query β σ) (aggregate : Aggregate) (revision : Revision (Query β σ)) :
    Request β σ :=
  q.request aggregate (revision.of q).elementTy revision

/-- Checks that the rows are numbers. -/
def checkNumeric (q : Query β σ) (aggregate : Aggregate) : Except QueryError Unit :=
  if q.elementTy.isNumeric then .ok ()
  else .error (.notSupported (.notNumeric aggregate q.elementTy))

/-- The request that a terminal comes down to. -/
def rewrite (q : Query β σ) (terminal : Terminal) : Except QueryError (Request β σ) :=
  match terminal with
  | .count p => (q.filterBy p).map (q.request .count .int32)
  | .longCount p => (q.filterBy p).map (q.request .count .int64)
  | .any p => (q.filterBy p).map (q.request .any .bool)
  | .all p => do
    let negated ← p.negate.mapError .mergeFailure
    (q.filter negated).map (q.request .notAny .bool)
  | .first p => (q.filterBy p).map (q.rowRequest .first)
  | .firstOrDefault p => (q.filterBy p).map (q.rowRequest .firstOrDefault)
  | .single p => (q.filterBy p).map (q.rowRequest .single)
  | .singleOrDefault p => (q.filterBy p).map (q.rowRequest .singleOrDefault)
  | .last p => (q.lastBy p).map (q.rowRequest .first)
  | .lastOrDefault p => (q.lastBy p).map (q.rowRequest .firstOrDefault)
  | .average f => do
    let revision ← q.selectBy f
    (revision.of q).checkNumeric .average
    .ok (q.request .average (revision.of q).elementTy.averageTy revision)
  | .sum f => do
    let revision ← q.selectBy f
    (revision.of q).checkNumeric .sum
    .ok (q.rowRequest .sum revision)
  | .min f => (q.selectBy f).map (q.rowRequest .minimum)
  | .max f => (q.selectBy f).map (q.rowRequest .maximum)
  | .elementAt index => (q.fromIndex index).map (q.rowRequest .first)
  | .elementAtOrDefault index => (q.fromIndex index).map (q.rowRequest .firstOrDefault)
  | .contains v =>
    if q.elementTy.admits v then do
      let p ← (Lambda.equals v q.elementTy).mapError .mergeFailure
      (q.filter p).map (q.request .any .bool)
    else .error (.argument (.notElement v.typeName q.elementTy))

/-- What becomes of a terminal. -/
def resolve (q : Query β σ) (terminal : Terminal) : Except QueryError (Resolution β σ) := do
  let request ← q.rewrite terminal
  match request.query.shortCircuit? request.aggregate request.resultTy with
  | none => .ok (.ask request)
  | some answer => answer.map .done

/-- The query whose first row is the least or greatest row, if the aggregate asks for
one and the rows have an order. -/
def asFirst? (q : Query β σ) (aggregate : Aggregate) : Except QueryError (Option (Query β σ)) :=
  let sorted (ascending : Bool) : Except QueryError (Option (Query β σ)) :=
    if q.projection.isNone && q.elementTy.record?.isSome then .ok none
    else (q.keepRepeats.orderByRows ascending).map some
  match aggregate with
  | .minimum => sorted true
  | .maximum => sorted false
  | _ => .ok none

end Query
end SeqQuery
