/-
# What terminals come down to

A terminal revises the query, asks for an aggregate of what comes of it, and promises the
answer in a type. Only the type depends on the revision, and only through the rows that the
revised query shows (`Query.rewrite_eq_ok`). What is said of all terminals is therefore
proved for their revisions, of which there are a few kinds.

A row at an index from the end is one from the start of the query turned over, which needs an
order (`Query.fromIndex_fromEnd_succ`).

Composing a query and rewriting a terminal end in four errors only. None of them is that of
a sequence without elements, which comes of reading rows.

Key definitions: `Terminal.lambda?`, `Terminal.aggregate`, `Terminal.addsUp`,
`Terminal.resultTy`, `Query.revisedFor`, `QueryError.IsRefusal`, `RefusedOr`.
Key theorems: `Query.rewrite_eq_ok`, `Query.resolve_eq_ok`, `Query.steps_refuses`,
`Query.rewrite_refuses`.
-/
import SeqQuery.Proofs.Steps
import SeqQuery.Query.Resolve

namespace SeqQuery

variable {β σ : Type}

/-! ### The parts of a terminal -/

namespace Terminal

/-- The lambda that a terminal is given, if it is. -/
def lambda? : Terminal → Option Lambda
  | .count f | .longCount f | .any f | .first f | .firstOrDefault f | .single f
  | .singleOrDefault f | .last f | .lastOrDefault f | .average f | .sum f | .min f | .max f => f
  | .all f => some f
  | .elementAt _ | .elementAtOrDefault _ | .contains _ => none

/-- What a terminal asks for. -/
def aggregate : Terminal → Aggregate
  | .count _ | .longCount _ => .count
  | .any _ | .contains _ => .any
  | .all _ => .notAny
  | .first _ | .last _ | .elementAt _ => .first
  | .firstOrDefault _ | .lastOrDefault _ | .elementAtOrDefault _ => .firstOrDefault
  | .single _ => .single
  | .singleOrDefault _ => .singleOrDefault
  | .average _ => .average
  | .sum _ => .sum
  | .min _ => .minimum
  | .max _ => .maximum

/-- Whether a terminal adds rows up, which must then be numbers. -/
def addsUp : Terminal → Bool
  | .average _ | .sum _ => true
  | _ => false

/-- The type that a terminal promises for its answer, by that of the rows. The average of numbers
in single precision is promised in single precision, and that of any others in double. -/
def resultTy (element : Ty) : Terminal → Ty
  | .count _ => .int32
  | .longCount _ => .int64
  | .any _ | .all _ | .contains _ => .bool
  | .average _ => if element = .float32 then .float32 else .float64
  | .first _ | .firstOrDefault _ | .single _ | .singleOrDefault _ | .last _ | .lastOrDefault _
  | .sum _ | .min _ | .max _ | .elementAt _ | .elementAtOrDefault _ => element

end Terminal

namespace Query

variable {q : Query β σ} {t : Terminal} {request : Request β σ}

/-- The predicate that a row is a value, which must be like a row. -/
def membership (q : Query β σ) (v : Value) : Except QueryError Lambda :=
  if q.elementTy.admits v then (Lambda.equals v q.elementTy).mapError .mergeFailure
  else .error (.argument (.notElement v.typeName q.elementTy))

/-- The query that a terminal asks about. -/
def revisedFor (q : Query β σ) : Terminal → Except QueryError (Revision (Query β σ))
  | .count p | .longCount p | .any p | .first p | .firstOrDefault p | .single p
  | .singleOrDefault p => q.filterBy p
  | .all p => p.negate.mapError .mergeFailure >>= q.filter
  | .last p | .lastOrDefault p => q.lastBy p
  | .average f | .sum f | .min f | .max f => q.selectBy f
  | .elementAt index | .elementAtOrDefault index => q.fromIndex index
  | .contains v => q.membership v >>= q.filter

/-- Checks that the rows are what a terminal needs. -/
def checkRows (q : Query β σ) (t : Terminal) : Except QueryError Unit :=
  if t.addsUp then q.checkNumeric t.aggregate else .ok ()

/-- The request that a terminal makes of a revised query. -/
def requestFor (q : Query β σ) (t : Terminal) (r : Revision (Query β σ)) : Request β σ :=
  ⟨r.of q, t.aggregate, t.resultTy (r.of q).elementTy, r.isUnchanged⟩

theorem rewrite_eq (q : Query β σ) (t : Terminal) : q.rewrite t = q.revisedFor t >>= fun r =>
    (r.of q).checkRows t >>= fun _ => .ok (q.requestFor t r) := by
  have hmap : ∀ {α : Type} (x : Except QueryError α) (f : α → Request β σ),
      x.map f = x >>= fun a => .ok (f a) := by
    intro α x f
    cases x <;> rfl
  cases t with
  | all p =>
    show (p.negate.mapError .mergeFailure >>= fun negated => (q.filter negated).map _) =
      (p.negate.mapError .mergeFailure >>= q.filter) >>= fun r => _
    cases p.negate with
    | error e => rfl
    | ok negated => exact hmap _ _
  | contains v =>
    show (if q.elementTy.admits v then (Lambda.equals v q.elementTy).mapError .mergeFailure >>=
      fun p => (q.filter p).map _ else _) = (q.membership v >>= q.filter) >>= fun r => _
    rw [membership]
    by_cases hv : q.elementTy.admits v
    · rw [if_pos hv, if_pos hv]
      cases Lambda.equals v q.elementTy with
      | error e => rfl
      | ok p => exact hmap _ _
    · rw [if_neg hv, if_neg hv]
      rfl
  | average f | sum f => rfl
  | _ => exact hmap _ _

/-- A terminal is accepted where its revision is, and where the rows that it adds up are
numbers. -/
theorem rewrite_eq_ok : q.rewrite t = .ok request ↔ ∃ r, q.revisedFor t = .ok r ∧
    (t.addsUp → (r.of q).elementTy.isNumeric) ∧ request = q.requestFor t r := by
  rw [rewrite_eq, Outcome.bind_eq_ok]
  refine exists_congr fun r => and_congr_right fun _ => ?_
  have hrows : (r.of q).checkRows t = .ok () ↔ (t.addsUp → (r.of q).elementTy.isNumeric) := by
    rw [checkRows, checkNumeric]
    cases t.addsUp with
    | false => simp
    | true => simp
  rw [Outcome.check_bind_eq_ok, hrows, Except.ok.injEq, @eq_comm _ request]

/-- What a terminal makes of its rewritten query. -/
theorem resolve_eq_ok {resolution : Resolution β σ} (h : q.resolve t = .ok resolution) :
    ∃ request, q.rewrite t = .ok request ∧ (resolution = .ask request ∨
      ∃ v, resolution = .done v ∧ request.aggregate.ofNoRows request.resultTy = .ok v) := by
  obtain ⟨request, hrewrite, hanswer⟩ := Outcome.bind_eq_ok.mp h
  refine ⟨request, hrewrite, ?_⟩
  unfold shortCircuit? at hanswer
  by_cases hempty : request.query.isEmpty
  · rw [if_pos hempty] at hanswer
    obtain ⟨v, hv, hdone⟩ := Outcome.map_eq_ok.mp hanswer
    exact .inr ⟨v, hdone.symm, hv⟩
  · rw [if_neg hempty] at hanswer
    exact .inl (Except.ok.inj hanswer).symm

/-- A backend is asked for the aggregate of the terminal. -/
theorem aggregate_of_ask (h : q.resolve t = .ok (.ask request)) :
    request.aggregate = t.aggregate := by
  obtain ⟨asked, hrewrite, hsame | ⟨v, hdone, -⟩⟩ := resolve_eq_ok h
  · obtain ⟨r, -, -, rfl⟩ := rewrite_eq_ok.mp hrewrite
    cases hsame
    rfl
  · cases hdone

end Query

/-! ### Rows from the end -/

/-- What comes of going on with another operation. -/
theorem Revision.andThen_eq_ok {α ε : Type} {old : α} {r r' : Revision α}
    {f : α → Except ε (Revision α)} (h : r.andThen old f = .ok r') : ∃ next,
      f (r.of old) = .ok next ∧ r'.of old = next.of (r.of old) ∧
        (r = .unchanged → next = .unchanged → r' = .unchanged) := by
  obtain ⟨next, hnext, rfl⟩ := Outcome.map_eq_ok.mp h
  refine ⟨next, hnext, ?_, ?_⟩
  · cases next <;> rfl
  · rintro rfl rfl
    rfl

namespace Query

variable {q : Query β σ} {r : Revision (Query β σ)}

/-- Only a query with an order has rows from the end. -/
theorem isOrdered_of_fromEnd {n : Nat} (hr : q.fromIndex (.fromEnd n) = .ok r) : q.isOrdered := by
  by_contra hordered
  rw [Bool.not_eq_true] at hordered
  simp [fromIndex, hordered] at hr

theorem fromIndex_fromEnd_zero (h : q.isOrdered) :
    q.fromIndex (.fromEnd 0) = .ok (q.takeRows 0) := by
  simp [fromIndex, h]

theorem fromIndex_fromEnd_succ (h : q.isOrdered) (k : Nat) : q.fromIndex (.fromEnd (k + 1)) =
    q.reverse >>= fun r => r.andThen q fun turned => .ok (turned.skipRows k) := by
  simp [fromIndex, h]

end Query

/-! ### Refusals -/

/-- The errors in which composing a query can end. -/
def QueryError.IsRefusal : QueryError → Prop
  | .invalidComposition _ | .notSupported _ | .mergeFailure _ | .argument _ => True
  | .emptyResult | .multipleResults | .coercionFailure .. | .backend _ | .evaluation _
  | .cancelled => False

/-- Whether a computation succeeds or ends in a refusal. -/
abbrev Refuses {α : Type} (x : Except QueryError α) : Prop :=
  Ends (fun _ => True) QueryError.IsRefusal x

/-- Whether a computation ends as another one does, or in a refusal. -/
def RefusedOr {α : Type} (x y : Except QueryError α) : Prop :=
  x = y ∨ ∃ e : QueryError, e.IsRefusal ∧ x = .error e

theorem RefusedOr.bind {α γ : Type} {x y : Except QueryError α} (h : RefusedOr x y)
    (f : α → Except QueryError γ) : RefusedOr (x.bind f) (y.bind f) := by
  rcases h with rfl | ⟨e, he, rfl⟩
  · exact .inl rfl
  · exact .inr ⟨e, he, rfl⟩

/-- What ends in a value or in the error of an empty sequence is not refused. -/
theorem RefusedOr.eq_of_answer {α : Type} {x y : Except QueryError α} (h : RefusedOr x y)
    (hx : (∃ v, x = .ok v) ∨ x = .error .emptyResult) : x = y := by
  rcases h with rfl | ⟨e, he, rfl⟩
  · rfl
  · rcases hx with ⟨v, hv⟩ | hnone
    · cases hv
    · obtain rfl := Except.error.inj hnone
      exact absurd he id

theorem refuses_mapError {α : Type} (x : Except ExprError α) :
    Refuses (x.mapError .mergeFailure) := by
  cases x with
  | error e => exact .error trivial
  | ok a => exact .ok trivial

namespace Source

variable (s : Source β σ)

theorem filter_refuses (p : Lambda) : Refuses (s.filter p) := by
  unfold filter
  split
  · exact .ok trivial
  · simp only
    split
    · exact .ok trivial
    · split
      · exact .error trivial
      · split
        · exact .ok trivial
        · exact (refuses_mapError _).bind fun joined _ => .ok trivial

theorem orderBy_refuses (key : Lambda) (newGroup ascending : Bool) :
    Refuses (s.orderBy key newGroup ascending) := by
  unfold orderBy
  split
  · exact .ok trivial
  · split
    · exact .error trivial
    · exact .ok trivial

theorem reverse_refuses : Refuses s.reverse := by
  unfold reverse
  split
  · exact .ok trivial
  · split
    · exact .error trivial
    · split
      · exact .error trivial
      · exact .ok trivial

theorem project_refuses (f : Lambda) : Refuses (s.project f) := by
  unfold project
  split
  · exact .ok trivial
  · split
    · exact .ok trivial
    · split
      · exact .error trivial
      · exact .ok trivial

end Source

namespace Query

variable (q : Query β σ)

theorem checkParam_refuses (name : String) (f : Lambda) (expected : Ty) :
    Refuses (checkParam name f expected) := by
  unfold checkParam
  split
  · exact .ok trivial
  · exact .error trivial

theorem rowCount_refuses (name : String) (n : Int64) : Refuses (rowCount name n) := by
  unfold rowCount
  split
  · exact .ok trivial
  · exact .error trivial

theorem onOrigin_refuses (f : Lambda) : Refuses (q.onOrigin f) := by
  unfold onOrigin
  split
  · exact .ok trivial
  · exact refuses_mapError _

theorem filter_refuses (p : Lambda) : Refuses (q.filter p) := by
  refine (checkParam_refuses _ p _).bind fun _ _ => ?_
  split
  · refine (q.onOrigin_refuses p).bind fun g _ => ?_
    exact (q.source.filter_refuses g).bind fun r _ => .ok trivial
  · exact .error trivial

theorem reverse_refuses : Refuses q.reverse :=
  q.source.reverse_refuses.map fun _ _ => trivial

theorem select_refuses (f : Lambda) : Refuses (q.select f) := by
  refine (checkParam_refuses _ f _).bind fun _ _ => ?_
  split
  · exact .ok trivial
  · split
    · refine (q.source.project_refuses f).bind fun p _ => ?_
      split <;> exact .ok trivial
    · refine (refuses_mapError _).bind fun composed _ => ?_
      exact (q.source.project_refuses composed).bind fun p _ => .ok trivial
    · exact .error trivial

theorem distinct_refuses (flag : Bool) : Refuses (q.distinct flag) := by
  unfold distinct
  split
  · split
    · exact .ok trivial
    · exact .error trivial
  · split
    · exact .ok trivial
    · split
      · exact .error trivial
      · exact .ok trivial

/-- An operation succeeds or is refused. -/
theorem step_refuses (s : Step σ) : Refuses (q.step s) := by
  cases s with
  | filter p => exact q.filter_refuses p
  | skip n => exact (rowCount_refuses _ n).map fun _ _ => trivial
  | take n => exact (rowCount_refuses _ n).map fun _ _ => trivial
  | orderBy key newGroup ascending =>
    refine (checkParam_refuses _ key _).bind fun _ _ => ?_
    refine (q.onOrigin_refuses key).bind fun g _ => ?_
    exact (q.source.orderBy_refuses g newGroup ascending).bind fun r _ => .ok trivial
  | reverse => exact q.reverse_refuses
  | select f => exact q.select_refuses f
  | distinct flag => exact q.distinct_refuses flag
  | withState state => exact .ok trivial

theorem steps_refuses : ∀ (ops : List (Step σ)) (q : Query β σ), Refuses (q.steps ops)
  | [], _ => .ok trivial
  | s :: rest, q => (q.step_refuses s).bind fun r _ => steps_refuses rest (r.of q)

/-! ### Terminals are refused as operations are -/

theorem filterBy_refuses (p : Option Lambda) : Refuses (q.filterBy p) := by
  cases p with
  | none => exact .ok trivial
  | some p => exact q.filter_refuses p

theorem andThen_refuses {α : Type} {old : α} {r : Revision α}
    {f : α → Except QueryError (Revision α)} (hf : ∀ a, Refuses (f a)) :
    Refuses (r.andThen old f) :=
  (hf _).map fun _ _ => trivial

theorem fromIndex_refuses (index : Index) : Refuses (q.fromIndex index) := by
  unfold fromIndex
  split
  · exact .ok trivial
  · split
    · exact .error trivial
    · split
      · exact .ok trivial
      · exact q.reverse_refuses.bind fun r _ => andThen_refuses fun _ => .ok trivial

theorem membership_refuses (v : Value) : Refuses (q.membership v) := by
  unfold membership
  split
  · exact refuses_mapError _
  · exact .error trivial

theorem revisedFor_refuses (t : Terminal) : Refuses (q.revisedFor t) := by
  cases t with
  | all p => exact (refuses_mapError _).bind fun negated _ => q.filter_refuses negated
  | last p | lastOrDefault p =>
    exact (q.filterBy_refuses p).bind fun r _ => andThen_refuses reverse_refuses
  | average f | sum f | min f | max f =>
    cases f with
    | none => exact .ok trivial
    | some f => exact q.select_refuses f
  | elementAt index | elementAtOrDefault index => exact q.fromIndex_refuses index
  | contains v => exact (q.membership_refuses v).bind fun p _ => q.filter_refuses p
  | _ => exact q.filterBy_refuses _

/-- A terminal is rewritten or refused. -/
theorem rewrite_refuses (t : Terminal) : Refuses (q.rewrite t) := by
  rw [rewrite_eq]
  refine (q.revisedFor_refuses t).bind fun r _ => ?_
  refine Ends.bind (P := fun _ => True) ?_ fun _ _ => .ok trivial
  unfold checkRows checkNumeric
  split
  · split
    · exact .ok trivial
    · exact .error trivial
  · exact .ok trivial

end Query
end SeqQuery
