/-
# Queries as chains of nodes

A query can be kept as a chain: a source and any number of projections around it. An
operation on a projection composes its lambda with the projection and goes on with what is
behind it, where the lambda is checked again, and the projection is then put around what
comes back. Projecting is the exception: what comes back is the result, so that the
projection is replaced.

The chain that operations make of a source is never longer than one projection, and is the
flat query of `Query.steps` (`Node.steps_toNode`). For a single operation this is a square:
an operation on the chain of a query is the chain of the operation on the query
(`Query.step_toNode`). It commutes because the lambdas that a query keeps are over the rows
of its origin, so that the checks behind a projection pass whenever the one in front of it
does.

Key definitions: `Node`, `Node.step`, `Node.steps`, `Query.toNode`.
Key theorems: `Query.step_toNode`, `Query.steps_toNode`, `Node.steps_wellFormed`.
-/
import SeqQuery.Proofs.StoredLambdas

namespace SeqQuery

variable {β σ : Type}

/-- A query as a chain of nodes. -/
inductive Node (β σ : Type) where
  | source (s : Source β σ)
  | projected (tail : Node β σ) (f : Lambda) (dropped : Bool)

namespace Node

/-- The source at the end of a chain. -/
def innermost : Node β σ → Source β σ
  | .source s => s
  | .projected tail _ _ => tail.innermost

/-- A projection around what comes back from behind it. -/
def rewrap (f : Lambda) (dropped : Bool) (r : Revision (Node β σ)) : Revision (Node β σ) :=
  r.map fun tail => .projected tail f dropped

/-- Checks a predicate that an operation is given. -/
def checkPredicate (p : Lambda) (ty : Ty) : Except QueryError Unit := do
  Query.checkParam "predicate" p ty
  if p.returnTy = .bool then .ok () else .error (.argument (.notPredicate p.returnTy))

/-! ### Operations -/

/-- Changes the source at the end of a chain. -/
def onSource (op : Source β σ → Except QueryError (Revision (Source β σ))) :
    Node β σ → Except QueryError (Revision (Node β σ))
  | .source s => (op s).map (·.map .source)
  | .projected tail f dropped => (tail.onSource op).map (rewrap f dropped)

/-- Changes the source at the end of a chain by a lambda over the rows that the chain shows.
The lambda is checked at every node. -/
def composing (check : Lambda → Ty → Except QueryError Unit)
    (op : Source β σ → Lambda → Except QueryError (Revision (Source β σ))) :
    Node β σ → Lambda → Except QueryError (Revision (Node β σ))
  | .source s, g => do
    check g s.origin
    (op s g).map (·.map .source)
  | .projected tail f dropped, g => do
    check g f.returnTy
    let composed ← (f.andThen g).mapError .mergeFailure
    (tail.composing check op composed).map (rewrap f dropped)

/-- Projects the rows. The composition with a projection goes to what is behind it. -/
def select : Node β σ → Lambda → Except QueryError (Revision (Node β σ))
  | .source s, f => do
    Query.checkParam "projection" f s.origin
    if f.isIdentity then .ok .unchanged
    else if s.isEmpty then
      if f.returnTy = s.origin then .ok .unchanged
      else .ok (.revised (.projected (.source s) f.fold false))
    else if s.hasRange then .error (.notSupported .selectAfterRange)
    else .ok (.revised (.projected (.source s) f.fold false))
  | .projected tail f dropped, g => do
    Query.checkParam "projection" g f.returnTy
    if g.isIdentity then .ok .unchanged
    else if dropped then .error (.notSupported .selectAfterDistinct)
    else do
      let composed ← (f.andThen g).mapError .mergeFailure
      let r ← tail.select composed
      .ok (.revised (r.of tail))

/-- Drops repeated rows, or no longer does. -/
def distinct : Node β σ → Bool → Except QueryError (Revision (Node β σ))
  | .source s, flag =>
    if !flag || s.isEmpty then .ok .unchanged else .error (.notSupported .distinctUnprojected)
  | .projected tail f dropped, flag =>
    if dropped == flag || tail.innermost.isEmpty then .ok .unchanged
    else if flag && tail.innermost.hasRange then .error (.notSupported .distinctAfterRange)
    else .ok (.revised (.projected tail f flag))

/-- Applies an operation. -/
def step (n : Node β σ) : Query.Step σ → Except QueryError (Revision (Node β σ))
  | .filter p => n.composing checkPredicate Source.filter p
  | .skip k => do
    let count ← Query.rowCount "skip" k
    n.onSource fun s => .ok (s.skipRows count)
  | .take k => do
    let count ← Query.rowCount "take" k
    n.onSource fun s => .ok (s.takeRows count)
  | .orderBy key newGroup ascending =>
    n.composing (Query.checkParam "key") (fun s key => s.orderBy key newGroup ascending) key
  | .reverse => n.onSource Source.reverse
  | .select f => n.select f
  | .distinct flag => n.distinct flag
  | .withState state => n.onSource fun s => .ok (.revised { s with state := some state })

/-- Applies operations one after the other. -/
def steps (n : Node β σ) : List (Query.Step σ) → Except QueryError (Node β σ)
  | [] => .ok n
  | s :: rest => do
    let r ← n.step s
    (r.of n).steps rest

/-- All rows of a backend. -/
def ofBackend (b : β) (origin : Ty) : Node β σ :=
  .source ⟨b, none, origin, none, 0, none, none⟩

theorem checkPredicate_eq_ok {p : Lambda} {ty : Ty} :
    checkPredicate p ty = .ok () ↔ p.paramTy = ty ∧ p.returnTy = .bool := by
  rw [checkPredicate, Query.checkParam_bind_eq_ok, Outcome.guard_eq_ok, and_iff_left rfl]

end Node

/-- A query as a chain. -/
def Query.toNode (q : Query β σ) : Node β σ :=
  match q.projection with
  | none => .source q.source
  | some p => .projected (.source q.source) p.lambda p.distinct

/-- What an operation makes of a query, as chains. -/
def Revision.toNode (r : Revision (Query β σ)) : Revision (Node β σ) :=
  r.map Query.toNode

theorem Revision.of_toNode (r : Revision (Query β σ)) (q : Query β σ) :
    r.toNode.of q.toNode = (r.of q).toNode := by
  cases r <;> rfl

namespace Query

variable {W : Vocabulary} {q : Query β σ} {s : Source β σ} {f g : Lambda} {dropped : Bool}

/-! ### Changes of the source -/

/-- The query that comes of a change of its source. -/
def revise (q : Query β σ) (x : Except QueryError (Revision (Source β σ))) :
    Except QueryError (Revision (Query β σ)) :=
  x.map (·.map q.withSource)

theorem onSource_toNode (q : Query β σ)
    (op : Source β σ → Except QueryError (Revision (Source β σ))) :
    q.toNode.onSource op = (q.revise (op q.source)).map Revision.toNode := by
  obtain ⟨s, none | p⟩ := q
  · show (op s).map (·.map Node.source) = _
    rcases op s with e | _ | s' <;> rfl
  · show ((op s).map (·.map Node.source)).map (Node.rewrap p.lambda p.distinct) = _
    rcases op s with e | _ | s' <;> rfl

/-- A lambda that is checked in front of a projection is composed with it, and then checked
in vain. -/
theorem composing_toNode {check : Lambda → Ty → Except QueryError Unit}
    {op : Source β σ → Lambda → Except QueryError (Revision (Source β σ))}
    (hagain : ∀ f m, q.projector = some f → f.andThen g = .ok m →
      check g f.returnTy = .ok () → check m q.originTy = .ok ()) :
    q.toNode.composing check op g = (check g q.elementTy >>= fun _ => q.onOrigin g >>= fun m =>
      q.revise (op q.source m)).map Revision.toNode := by
  obtain ⟨s, none | ⟨f, dropped⟩⟩ := q
  · show (check g s.origin >>= fun _ => Node.onSource (fun s => op s g) (.source s)) =
      Except.map _ (check g s.origin >>= fun _ => revise _ (op s g))
    cases check g s.origin with
    | error e => rfl
    | ok u => exact onSource_toNode ⟨s, none⟩ fun s => op s g
  · show (check g f.returnTy >>= fun _ => (f.andThen g).mapError .mergeFailure >>= fun m =>
      ((Node.source s).composing check op m).map (Node.rewrap f dropped)) =
        Except.map _ (check g f.returnTy >>= fun _ =>
          (f.andThen g).mapError .mergeFailure >>= fun m => revise _ (op s m))
    cases hcheck : check g f.returnTy with
    | error e => rfl
    | ok u =>
      cases hm : f.andThen g with
      | error e => rfl
      | ok m =>
        have hpasses : check m s.origin = .ok () := hagain f m rfl hm hcheck
        have htail : (Node.source s).composing check op m =
            Node.onSource (fun s => op s m) (.source s) := by
          rw [Node.composing, hpasses, Outcome.ok_bind, Node.onSource]
        show ((Node.source s).composing check op m).map (Node.rewrap f dropped) = _
        rw [htail]
        exact onSource_toNode ⟨s, some ⟨f, dropped⟩⟩ fun s => op s m

/-! ### Operations as changes of the source -/

theorem filter_eq (q : Query β σ) (p : Lambda) : q.filter p =
    Node.checkPredicate p q.elementTy >>= fun _ => q.onOrigin p >>= fun g =>
      q.revise (q.source.filter g) := by
  unfold filter Node.checkPredicate checkParam
  by_cases hty : p.paramTy = q.elementTy
  · rw [if_pos hty, Outcome.ok_bind, Outcome.ok_bind]
    by_cases hbool : p.returnTy = .bool
    · rw [if_pos hbool, if_pos hbool, Outcome.ok_bind]
      rfl
    · rw [if_neg hbool, if_neg hbool, Outcome.error_bind]
  · rw [if_neg hty, Outcome.error_bind, Outcome.error_bind, Outcome.error_bind]

/-! ### One operation -/

/-- The composition of a predicate with the projection is a predicate over the origin. -/
theorem filter_toNode (hW : W.Stable) (h : q.Over W) {p : Lambda} (hp : p.Over W) :
    q.toNode.composing Node.checkPredicate Source.filter p =
      (q.filter p).map Revision.toNode := by
  rw [filter_eq]
  refine composing_toNode fun f m hf hm hcheck => ?_
  obtain ⟨hfits, hnarrows⟩ := (h.projector f hf).andThen hW hp hm
  have hbool : m.returnTy = .bool := by
    rw [(Node.checkPredicate_eq_ok.mp hcheck).2] at hnarrows
    exact hnarrows.eq_of_not_nullable rfl
  exact Node.checkPredicate_eq_ok.mpr ⟨hfits.paramTy, hbool⟩

theorem orderBy_toNode (hW : W.Stable) (h : q.Over W) {key : Lambda} (hkey : key.Over W)
    (newGroup ascending : Bool) : q.toNode.composing (checkParam "key")
      (fun s key => s.orderBy key newGroup ascending) key =
        (q.orderBy key newGroup ascending).map Revision.toNode := by
  refine composing_toNode fun f m hf hm _ => ?_
  have hfits := ((h.projector f hf).andThen hW hkey hm).1
  exact if_pos hfits.paramTy

/-- A projection of a source, unless it changes nothing. -/
theorem select_source (hty : f.paramTy = s.origin) : (Node.source s).select f =
    (s.project f).map fun
      | none => .unchanged
      | some p => .revised (toNode ⟨s, some p⟩) := by
  rw [Node.select, checkParam, if_pos hty, Outcome.ok_bind, Source.project]
  by_cases hid : f.isIdentity
  · rw [if_pos hid, if_pos hid]
    rfl
  · rw [if_neg hid, if_neg hid]
    by_cases hempty : s.isEmpty
    · rw [if_pos hempty, if_pos hempty]
      by_cases horigin : f.returnTy = s.origin
      · rw [if_pos horigin, if_pos horigin]
        rfl
      · rw [if_neg horigin, if_neg horigin]
        rfl
    · rw [if_neg hempty, if_neg hempty]
      by_cases hrange : s.hasRange
      · rw [if_pos hrange, if_pos hrange]
        rfl
      · rw [if_neg hrange, if_neg hrange]
        rfl

/-- A second projection takes the place of the first. -/
theorem select_toNode (hW : W.Stable) (h : q.Over W) (hg : g.Over W) :
    q.toNode.select g = (q.select g).map Revision.toNode := by
  obtain ⟨s, none | ⟨f, dropped⟩⟩ := q
  · by_cases hty : g.paramTy = s.origin
    · show (Node.source s).select g = _
      rw [select_source hty, select, checkParam, elementTy, if_pos hty, Outcome.ok_bind]
      by_cases hid : g.isIdentity
      · rw [if_pos hid, Source.project, if_pos hid]
        rfl
      · rw [if_neg hid]
        rcases s.project g with e | _ | p <;> rfl
    · have hcheck : checkParam "projection" g s.origin =
          .error (.argument (.parameterTy "projection" s.origin g.paramTy)) := if_neg hty
      show (Node.source s).select g = _
      rw [Node.select, hcheck, select, elementTy, hcheck]
      rfl
  · show (checkParam "projection" g f.returnTy >>= fun _ => _) =
      Except.map _ (checkParam "projection" g f.returnTy >>= fun _ => _)
    cases checkParam "projection" g f.returnTy with
    | error e => rfl
    | ok u =>
      rw [Outcome.ok_bind, Outcome.ok_bind]
      by_cases hid : g.isIdentity
      · rw [if_pos hid, if_pos hid]
        rfl
      · rw [if_neg hid, if_neg hid]
        cases dropped with
        | true => rfl
        | false =>
          rw [if_neg Bool.false_ne_true]
          show ((f.andThen g).mapError .mergeFailure >>= fun m => (Node.source s).select m >>=
            fun r => Except.ok (Revision.revised (r.of (Node.source s)))) =
              Except.map Revision.toNode ((f.andThen g).mapError .mergeFailure >>= fun m =>
                s.project m >>= fun p => Except.ok (Revision.revised (Query.mk s p)))
          cases hm : f.andThen g with
          | error e => rfl
          | ok m =>
            have hfits := ((h.projector f rfl).andThen hW hg hm).1
            show ((Node.source s).select m >>= fun r => _) =
              Except.map _ (s.project m >>= fun p => _)
            rw [select_source hfits.paramTy]
            rcases s.project m with e | _ | p <;> rfl

theorem distinct_toNode (q : Query β σ) (flag : Bool) :
    q.toNode.distinct flag = (q.distinct flag).map Revision.toNode := by
  obtain ⟨s, none | ⟨f, dropped⟩⟩ := q
  · show (if !flag || s.isEmpty then _ else _) = Except.map _ (if !flag || s.isEmpty then _ else _)
    by_cases hskip : (!flag || s.isEmpty) = true
    · rw [if_pos hskip, if_pos hskip]
      rfl
    · rw [if_neg hskip, if_neg hskip]
      rfl
  · show (if dropped == flag || s.isEmpty then _ else if flag && s.hasRange then _ else _) =
      Except.map _ (if dropped == flag || s.isEmpty then _ else if flag && s.hasRange then _ else _)
    by_cases hskip : (dropped == flag || s.isEmpty) = true
    · rw [if_pos hskip, if_pos hskip]
      rfl
    · rw [if_neg hskip, if_neg hskip]
      by_cases hrange : (flag && s.hasRange) = true
      · rw [if_pos hrange, if_pos hrange]
        rfl
      · rw [if_neg hrange, if_neg hrange]
        rfl

/-- An operation on the chain of a query gives the chain of what it makes of the query. -/
theorem step_toNode (hW : W.Stable) (h : q.Over W) {s : Step σ} (hs : s.Over W) :
    q.toNode.step s = (q.step s).map Revision.toNode := by
  cases s with
  | filter p => exact filter_toNode hW h (hs p rfl).1
  | skip n =>
    show (rowCount "skip" n >>= fun count => q.toNode.onSource fun s => .ok (s.skipRows count)) =
      ((rowCount "skip" n).map q.skipRows).map Revision.toNode
    cases rowCount "skip" n with
    | error e => rfl
    | ok count => exact onSource_toNode q fun s => .ok (s.skipRows count)
  | take n =>
    show (rowCount "take" n >>= fun count => q.toNode.onSource fun s => .ok (s.takeRows count)) =
      ((rowCount "take" n).map q.takeRows).map Revision.toNode
    cases rowCount "take" n with
    | error e => rfl
    | ok count => exact onSource_toNode q fun s => .ok (s.takeRows count)
  | orderBy key newGroup ascending =>
    exact orderBy_toNode hW h (hs key rfl).1 newGroup ascending
  | reverse => exact onSource_toNode q Source.reverse
  | select f => exact select_toNode hW h (hs f rfl).1
  | distinct flag => exact distinct_toNode q flag
  | withState state =>
    exact onSource_toNode q fun s => .ok (.revised { s with state := some state })

/-! ### Chains of operations -/

/-- The chain that operations make of the chain of a query is that of what they make of the
query. -/
theorem steps_toNode (hW : W.Stable) : ∀ {ops : List (Step σ)} {q : Query β σ}, q.Over W →
    (∀ s ∈ ops, s.Over W) → q.toNode.steps ops = (q.steps ops).map toNode
  | [], _, _, _ => rfl
  | s :: rest, q, h, hops => by
    rw [List.forall_mem_cons] at hops
    show (q.toNode.step s >>= fun r => (r.of q.toNode).steps rest) =
      Except.map toNode (q.step s >>= fun r => (r.of q).steps rest)
    rw [step_toNode hW h hops.1]
    cases hr : q.step s with
    | error e => rfl
    | ok r =>
      show (r.toNode.of q.toNode).steps rest = ((r.of q).steps rest).map toNode
      rw [Revision.of_toNode]
      exact steps_toNode hW (h.step hW hops.1 hr) hops.2

theorem tail_toNode {tail : Node β σ} (h : q.toNode = .projected tail f dropped) :
    tail = .source q.source := by
  obtain ⟨s, none | p⟩ := q
  · cases h
  · cases h
    rfl

theorem orderCount_eq (q : Query β σ) : q.orderCount = q.clauses.length := by
  cases hs : q.source.sorting with
  | none => rw [orderCount, hs, clauses_of_none hs, List.length_nil]
  | some s =>
    rw [orderCount, hs, clauses_of_some hs, Sorting.clauses, Sorting.length_grouped]
    exact (Nat.zero_add _).symm

end Query

/-- Operations with closed lambdas make of a backend's rows a chain of at most one projection,
and the same query as without chains. Its filter, projection and keys are closed lambdas over
the rows of the origin, it has a clause for each key, and it is over the backend and the
origin that it was begun with and has the state that it was given last. -/
theorem Node.steps_wellFormed (b : β) (origin : Ty) (ops : List (Query.Step σ))
    (hops : ∀ s ∈ ops, s.IsClosed) :
    (Node.ofBackend b origin).steps ops = ((Query.ofBackend b origin).steps ops).map Query.toNode ∧
    (∀ n : Node β σ, (Node.ofBackend b origin).steps ops = .ok n →
      ∀ tail f dropped, n = .projected tail f dropped → ∃ s, tail = .source s) ∧
    ∀ q : Query β σ, (Query.ofBackend b origin).steps ops = .ok q →
      q.WellFormed ∧ q.orderCount = q.clauses.length ∧ q.originTy = origin ∧ q.backend = b ∧
        q.state = (ops.filterMap Query.Step.state?).getLast? := by
  have hstable : Vocabulary.closedTerms.Stable := Vocabulary.stable_mentioning _
  have hclosed : ∀ s ∈ ops, s.Over .closedTerms := fun s hs => (hops s hs).over_closedTerms
  have hinit := Query.Over.ofBackend (σ := σ) (W := .closedTerms) b origin
  have hchain : (Node.ofBackend b origin).steps ops =
      ((Query.ofBackend b origin).steps ops).map Query.toNode :=
    Query.steps_toNode hstable hinit hclosed
  refine ⟨hchain, fun n hn tail f dropped htail => ?_, fun q hq => ?_⟩
  · rw [hchain] at hn
    obtain ⟨q, -, rfl⟩ := Outcome.map_eq_ok.mp hn
    exact ⟨q.source, Query.tail_toNode htail⟩
  · obtain ⟨hbackend, horigin, hstate⟩ := Query.steps_frame hq
    have hover := hinit.steps hstable hclosed hq
    exact ⟨hover.wellFormed, q.orderCount_eq, horigin, hbackend, hstate.trans Option.or_none⟩

/-- Two filters over different parameters, the second of them on a projection, are joined over
the parameter of the first. -/
theorem Node.steps_wellFormed_joined :
    let x : Param := ⟨1, "x", .int32⟩
    let y : Param := ⟨2, "y", .int32⟩
    let z : Param := ⟨3, "z", .int32⟩
    let positive : Param → Lambda := fun p =>
      ⟨p, .binary (.relation .gt) (.param p) (.const (.int32 0) .int32) .bool⟩
    let negated : Param → Lambda := fun p => ⟨p, .unary .negate (.param p) .int32⟩
    let ops : List (Query.Step Nat) := [.filter (positive x), .select (negated y),
      .filter (positive z), .orderBy (negated z) true false, .withState 7, .select (negated z),
      .distinct true, .skip 1]
    ∃ (n : Node Unit Nat) (q : Query Unit Nat), (Node.ofBackend () .int32).steps ops = .ok n ∧
      (Query.ofBackend () .int32).steps ops = .ok q ∧ n = q.toNode ∧
      (∃ s f, n = .projected (.source s) f true) ∧ q.WellFormed ∧ q.orderCount = 1 ∧
      q.clauses.length = 1 ∧ q.state = some 7 ∧
      ∃ p, q.source.predicate = some p ∧ p.param = x ∧ p.returnTy = .bool := by
  intro x y z positive negated ops
  have hpositive : ∀ p : Param, p.ty = .int32 → (positive p).body.Built := by
    intro p hp
    have hmk : Expr.mkBinary (.relation .gt) (.param p) (.ofValue (.int32 0)) =
        .ok (positive p).body := by
      obtain ⟨id, name, ty⟩ := p
      obtain rfl : ty = .int32 := hp
      rfl
    exact .binary (.param p) (.value _) hmk
  have hnegated : ∀ p : Param, p.ty = .int32 → (negated p).body.Built := by
    intro p hp
    have hmk : Expr.mkUnary .negate (.param p) = .ok (negated p).body := by
      obtain ⟨id, name, ty⟩ := p
      obtain rfl : ty = .int32 := hp
      rfl
    exact .unary (.param p) hmk
  have hclosed : ∀ p : Param, (positive p).IsClosed ∧ (negated p).IsClosed := by
    intro p
    simp [Lambda.IsClosed, positive, negated, Expr.nodes]
  have hops : ∀ s ∈ ops, s.IsClosed := by
    simp [ops, Query.Step.IsClosed, Query.Step.lambda?, hclosed, hpositive, hnegated, x, y, z]
  obtain ⟨hchain, -, hquery⟩ := Node.steps_wellFormed () .int32 ops hops
  refine ⟨_, _, hchain, rfl, rfl, ⟨_, _, rfl⟩, ?_⟩
  obtain ⟨hwell, hcount, -, -, hstate⟩ := hquery _ rfl
  exact ⟨hwell, rfl, hcount.symm, hstate, _, rfl, rfl, rfl⟩

end SeqQuery
