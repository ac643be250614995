/-
# Composing queries

Every operation gives back the very query when it changes nothing, and else a new
one. On a projected query an operation is composed with the projection first, so
that it can be put on the rows as the backend has them.

Row limits come last: once rows are skipped or limited, no filter, key, projection or
dropping of repeated rows can be added, because each would have to act on the rows
that the limits leave. A query that is known to have no rows accepts all of them and
stays as it is.

Key definitions: `maxRows`, `Query.filter`, `Query.skip`, `Query.take`, `Query.orderBy`,
`Query.reverse`, `Query.select`, `Query.distinct`, `Query.withState`, `Query.Step`,
`Query.step`, `Query.steps`.
-/
import SeqQuery.Lambda
import SeqQuery.Query
import SeqQuery.Query.Error
import SeqQuery.Revision

namespace SeqQuery

variable {β σ : Type}

/-- The most rows that can be skipped. Skipping more stays at this number. -/
def maxRows : Nat := Nat.pow 2 64 - 1

/-- The parameter of the lambdas that the library makes itself. -/
def Param.own (ty : Ty) : Param := ⟨0, "x", ty⟩

/-! ### Operations on the rows as the backend has them -/

namespace Source

/-- Adds a filter. One that lets every row pass changes nothing. -/
def filter (s : Source β σ) (p : Lambda) : Except QueryError (Revision (Source β σ)) :=
  if s.isEmpty then .ok .unchanged
  else
    let p := p.fold
    if p.body.constantBool? = some true then .ok .unchanged
    else if s.hasRange then .error (.invalidComposition .filterAfterRange)
    else
      match s.predicate with
      | none => .ok (.revised { s with predicate := some p })
      | some existing => do
        let joined ← (existing.conjoin p).mapError .mergeFailure
        .ok (.revised { s with predicate := some joined })

/-- Skips rows in front of those that are left. -/
def skipRows (s : Source β σ) (n : Nat) : Revision (Source β σ) :=
  if n = 0 ∨ s.isEmpty then .unchanged
  else .revised { s with skip := min (s.skip + n) maxRows, take := s.take.map (· - n) }

/-- Keeps at most so many of the rows that are left. -/
def takeRows (s : Source β σ) (n : Nat) : Revision (Source β σ) :=
  if s.take.any (· ≤ n) then .unchanged else .revised { s with take := some n }

/-- Adds a sort key. -/
def orderBy (s : Source β σ) (key : Lambda) (newGroup ascending : Bool) :
    Except QueryError (Revision (Source β σ)) :=
  if s.isEmpty then .ok .unchanged
  else if s.hasRange then .error (.invalidComposition .orderAfterRange)
  else
    let sorting :=
      match s.sorting with
      | none => .start key.fold ascending
      | some sorting => sorting.push key.fold newGroup ascending
    .ok (.revised { s with sorting := some sorting })

/-- Turns the order over. -/
def reverse (s : Source β σ) : Except QueryError (Revision (Source β σ)) :=
  if s.isEmpty then .ok .unchanged
  else if s.hasRange then .error (.invalidComposition .reverseAfterRange)
  else
    match s.sorting with
    | none => .error (.invalidComposition .reverseUnordered)
    | some sorting => .ok (.revised { s with sorting := some sorting.reverse })

/-- The projection that a lambda makes of the rows, or none if they stay as they are. -/
def project (s : Source β σ) (f : Lambda) : Except QueryError (Option Projection) :=
  if f.isIdentity then .ok none
  else if s.isEmpty then .ok (if f.returnTy = s.origin then none else some ⟨f.fold, false⟩)
  else if s.hasRange then .error (.notSupported .selectAfterRange)
  else .ok (some ⟨f.fold, false⟩)

end Source

namespace Query

/-! ### Arguments -/

/-- Checks the parameter of a lambda that an operation is given. -/
def checkParam (name : String) (f : Lambda) (expected : Ty) : Except QueryError Unit :=
  if f.paramTy = expected then .ok () else .error (.argument (.parameterTy name expected f.paramTy))

/-- Checks a number of rows. -/
def rowCount (name : String) (n : Int64) : Except QueryError Nat :=
  if 0 ≤ n.toInt then .ok n.toInt.toNat else .error (.argument (.negative name n))

/-- A lambda over the rows of a query as one over the rows that the backend has. -/
def onOrigin (q : Query β σ) (f : Lambda) : Except QueryError Lambda :=
  match q.projection with
  | none => .ok f
  | some p => (p.lambda.andThen f).mapError .mergeFailure

/-! ### Operations -/

/-- Keeps the rows that pass a predicate. -/
def filter (q : Query β σ) (p : Lambda) : Except QueryError (Revision (Query β σ)) := do
  checkParam "predicate" p q.elementTy
  if p.returnTy = .bool then
    let revision ← q.source.filter (← q.onOrigin p)
    .ok (revision.map q.withSource)
  else .error (.argument (.notPredicate p.returnTy))

/-- Skips rows that are left. -/
def skipRows (q : Query β σ) (n : Nat) : Revision (Query β σ) :=
  (q.source.skipRows n).map q.withSource

/-- Keeps at most so many of the rows that are left. -/
def takeRows (q : Query β σ) (n : Nat) : Revision (Query β σ) :=
  (q.source.takeRows n).map q.withSource

/-- Skips the first rows. -/
def skip (q : Query β σ) (n : Int64) : Except QueryError (Revision (Query β σ)) :=
  (rowCount "skip" n).map q.skipRows

/-- Keeps at most the first rows. -/
def take (q : Query β σ) (n : Int64) : Except QueryError (Revision (Query β σ)) :=
  (rowCount "take" n).map q.takeRows

/-- Sorts by a key, before all keys so far or after those of the newest group. -/
def orderBy (q : Query β σ) (key : Lambda) (newGroup ascending : Bool) :
    Except QueryError (Revision (Query β σ)) := do
  checkParam "key" key q.elementTy
  let revision ← q.source.orderBy (← q.onOrigin key) newGroup ascending
  .ok (revision.map q.withSource)

/-- Turns the order over. -/
def reverse (q : Query β σ) : Except QueryError (Revision (Query β σ)) :=
  q.source.reverse.map (·.map q.withSource)

/-- Projects the rows. A second projection is composed with the first. -/
def select (q : Query β σ) (f : Lambda) : Except QueryError (Revision (Query β σ)) := do
  checkParam "projection" f q.elementTy
  if f.isIdentity then .ok .unchanged
  else
    match q.projection with
    | none =>
      match (← q.source.project f) with
      | none => .ok .unchanged
      | some p => .ok (.revised ⟨q.source, some p⟩)
    | some ⟨g, false⟩ => do
      let composed ← (g.andThen f).mapError .mergeFailure
      .ok (.revised ⟨q.source, ← q.source.project composed⟩)
    | some ⟨_, true⟩ => .error (.notSupported .selectAfterDistinct)

/-- Drops repeated rows, or no longer does. -/
def distinct (q : Query β σ) (flag : Bool) : Except QueryError (Revision (Query β σ)) :=
  match q.projection with
  | none =>
    if !flag || q.isEmpty then .ok .unchanged else .error (.notSupported .distinctUnprojected)
  | some p =>
    if p.distinct == flag || q.isEmpty then .ok .unchanged
    else if flag && q.hasRange then .error (.notSupported .distinctAfterRange)
    else .ok (.revised ⟨q.source, some ⟨p.lambda, flag⟩⟩)

/-- The same query with another state of the backend's. -/
def withState (q : Query β σ) (state : σ) : Query β σ :=
  q.withSource { q.source with state := some state }

/-! ### Chains of operations -/

/-- An operation on a query. -/
inductive Step (σ : Type) where
  | filter (p : Lambda)
  | skip (n : Int64)
  | take (n : Int64)
  | orderBy (key : Lambda) (newGroup ascending : Bool)
  | reverse
  | select (f : Lambda)
  | distinct (flag : Bool)
  | withState (state : σ)

/-- Applies an operation. -/
def step (q : Query β σ) : Step σ → Except QueryError (Revision (Query β σ))
  | .filter p => q.filter p
  | .skip n => q.skip n
  | .take n => q.take n
  | .orderBy key newGroup ascending => q.orderBy key newGroup ascending
  | .reverse => q.reverse
  | .select f => q.select f
  | .distinct flag => q.distinct flag
  | .withState state => .ok (.revised (q.withState state))

/-- Applies operations one after the other. -/
def steps (q : Query β σ) : List (Step σ) → Except QueryError (Query β σ)
  | [] => .ok q
  | s :: rest => do
    let revision ← q.step s
    (revision.of q).steps rest

/-! ### Rewrites for aggregates -/

/-- Sorts by the rows themselves, before all keys so far. -/
def orderByRows (q : Query β σ) (ascending : Bool) : Except QueryError (Query β σ) := do
  let key :=
    match q.projection with
    | none => Lambda.identity (.own q.source.origin)
    | some p => p.lambda
  let revision ← q.source.orderBy key true ascending
  .ok (q.withSource (revision.of q.source))

/-- The query without dropping repeated rows, if none are skipped. It has the same
first row. -/
def keepRepeats (q : Query β σ) : Query β σ :=
  match q.projection with
  | some ⟨f, true⟩ => if q.source.skip = 0 then ⟨q.source, some ⟨f, false⟩⟩ else q
  | _ => q

end Query
end SeqQuery
