/-
# Queries that are known to have no rows

A query whose limit is 0 keeps it. Every operation that it accepts gives back the very
query, except that it can be projected, to show no rows of another type, and that the
backend can keep another state in it (`Query.step_of_isEmpty`). A terminal is answered from
a table (`Aggregate.ofNoRows`) whatever it rewrites the query to, so that the backend is
never asked (`Query.execute_of_isEmpty`).

The table is right: a query over no rows in memory that is run all the same has the answer
of the table, or is refused (`Memory.aggregate_nothing`). That a query with the limit 0 has
the type of the query without it needs an argument where it is projected, because a
projection that gives the type of the origin is then dropped (`Query.select_noRows`).

Key definitions: `Query.Step.renews`, `Query.noRows`, `Aggregate.Asks`.
Key theorems: `Query.step_of_isEmpty`, `Query.revisedFor_of_isEmpty`,
`Query.execute_of_isEmpty`, `Query.revisedFor_noRows`, `Memory.aggregate_nothing`,
`Query.execute_noRows`, `Query.isEmpty_absorbing`.
-/
import SeqQuery.Proofs.Extremes
import SeqQuery.Proofs.Requests
import SeqQuery.Proofs.StoredLambdas

namespace SeqQuery

variable {β σ : Type}

namespace Query

/-! ### Operations on a query without rows -/

section Absorbing

variable {q q' : Query β σ} {r : Revision (Query β σ)} {f p : Lambda} {t : Terminal}

theorem hasRange_of_isEmpty (h : q.isEmpty) : q.hasRange ≠ false := by
  intro hrange
  rw [isEmpty_of_hasRange hrange] at h
  cases h

theorem filter_unchanged (h : q.isEmpty) (hstep : q.filter p = .ok r) : r = .unchanged := by
  obtain ⟨-, -, g, -, ⟨hr, -⟩ | ⟨hrange, -⟩⟩ := filter_eq_ok hstep
  · exact hr
  · exact absurd hrange (hasRange_of_isEmpty h)

theorem skipRows_unchanged (h : q.isEmpty) (n : Nat) : q.skipRows n = .unchanged := by
  have hskip : q.source.skipRows n = .unchanged := if_pos (.inr h)
  rw [skipRows, hskip]
  rfl

theorem takeRows_unchanged (h : q.isEmpty) (n : Nat) : q.takeRows n = .unchanged := by
  rcases q.takeRows_cases n with ⟨hr, -⟩ | ⟨hmore, -⟩
  · exact hr
  · exact absurd (hmore 0 (Source.isEmpty_iff.mp h)) (Nat.not_lt_zero n)

theorem reverse_unchanged (h : q.isEmpty) : q.reverse = .ok .unchanged := by
  have hreverse : q.source.reverse = .ok .unchanged := if_pos h
  rw [reverse, hreverse]
  rfl

theorem select_isEmpty (h : q.isEmpty) (hstep : q.select f = .ok r) : (r.of q).isEmpty := by
  obtain ⟨-, ⟨-, rfl⟩ | ⟨g, projection, -, -, -, hr⟩⟩ := select_eq_ok hstep
  · exact h
  · rw [hr]
    exact h

/-- Whether an operation can make a new query of one without rows. -/
def Step.renews : Step σ → Bool
  | .select _ | .withState _ => true
  | .filter _ | .skip _ | .take _ | .orderBy .. | .reverse | .distinct _ => false

/-- What is accepted on a query without rows leaves it without rows, and changes it only by
projecting it or by handing a state to the backend. -/
theorem step_of_isEmpty (h : q.isEmpty) {s : Step σ} (hstep : q.step s = .ok r) :
    (r.of q).isEmpty ∧ (s.renews = false → r = .unchanged) := by
  have hsame : r = .unchanged → (r.of q).isEmpty ∧ (s.renews = false → r = .unchanged) := by
    rintro rfl
    exact ⟨h, fun _ => rfl⟩
  cases s with
  | filter p => exact hsame (filter_unchanged h hstep)
  | skip n =>
    obtain ⟨-, rfl⟩ := skip_eq_ok hstep
    exact hsame (skipRows_unchanged h _)
  | take n =>
    obtain ⟨-, rfl⟩ := take_eq_ok hstep
    exact hsame (takeRows_unchanged h _)
  | orderBy key newGroup ascending =>
    obtain ⟨-, g, -, ⟨hr, -⟩ | ⟨hrange, -⟩⟩ := orderBy_eq_ok hstep
    · exact hsame hr
    · exact absurd hrange (hasRange_of_isEmpty h)
  | reverse => exact hsame (Except.ok.inj (hstep.symm.trans (reverse_unchanged h)))
  | select f => exact ⟨select_isEmpty h hstep, nofun⟩
  | distinct flag =>
    have hflag : q.distinct flag = .ok .unchanged := by
      unfold distinct
      rw [h, Bool.or_true]
      cases q.projection with
      | none => rfl
      | some p => exact if_pos (Bool.or_true _)
    exact hsame (Except.ok.inj (hstep.symm.trans hflag))
  | withState state =>
    obtain rfl := Except.ok.inj hstep
    exact ⟨h, nofun⟩

theorem steps_of_isEmpty {ops : List (Step σ)} (h : q.isEmpty) (hsteps : q.steps ops = .ok q') :
    q'.isEmpty :=
  steps_keep (A := fun _ => True) (fun h _ hstep => (step_of_isEmpty h hstep).1) h
    (fun _ _ => trivial) hsteps

/-! ### Terminals of a query without rows -/

theorem filterBy_unchanged (h : q.isEmpty) {p : Option Lambda} (hr : q.filterBy p = .ok r) :
    r = .unchanged := by
  cases p with
  | none => exact (Except.ok.inj hr).symm
  | some p => exact filter_unchanged h hr

theorem lastBy_unchanged (h : q.isEmpty) {p : Option Lambda} (hr : q.lastBy p = .ok r) :
    r = .unchanged := by
  obtain ⟨kept, hkept, hr⟩ := Outcome.bind_eq_ok.mp hr
  obtain rfl := filterBy_unchanged h hkept
  obtain ⟨next, hnext, -, hsame⟩ := Revision.andThen_eq_ok hr
  obtain rfl := Except.ok.inj (hnext.symm.trans (reverse_unchanged h))
  exact hsame rfl rfl

theorem fromIndex_unchanged (h : q.isEmpty) {index : Index}
    (hordered : ∀ n, index = .fromEnd n → q.isOrdered) : q.fromIndex index = .ok .unchanged := by
  match index with
  | .fromStart n => exact congrArg Except.ok (skipRows_unchanged h n)
  | .fromEnd 0 =>
    rw [fromIndex_fromEnd_zero (hordered 0 rfl), takeRows_unchanged h]
  | .fromEnd (k + 1) =>
    rw [fromIndex_fromEnd_succ (hordered (k + 1) rfl), reverse_unchanged h, Outcome.ok_bind,
      Revision.andThen, Revision.of_unchanged, skipRows_unchanged h]
    rfl

/-- A terminal leaves a query without rows as it is, or projects it. -/
theorem revisedFor_of_isEmpty (h : q.isEmpty) (hr : q.revisedFor t = .ok r) :
    r = .unchanged ∨ ∃ f, t.lambda? = some f ∧ q.select f = .ok r := by
  cases t with
  | all p | contains v =>
    obtain ⟨p, -, hr⟩ := Outcome.bind_eq_ok.mp hr
    exact .inl (filter_unchanged h hr)
  | last p | lastOrDefault p => exact .inl (lastBy_unchanged h hr)
  | average f | sum f | min f | max f =>
    cases f with
    | none => exact .inl (Except.ok.inj hr).symm
    | some f => exact .inr ⟨f, rfl, hr⟩
  | elementAt index | elementAtOrDefault index =>
    have hordered : ∀ n, index = .fromEnd n → q.isOrdered := by
      rintro n rfl
      exact isOrdered_of_fromEnd hr
    exact .inl (Except.ok.inj (hr.symm.trans (fromIndex_unchanged h hordered)))
  | _ => exact .inl (filterBy_unchanged h hr)

/-- A terminal of a query without rows is answered, or refused, without the backend. -/
theorem execute_of_isEmpty (h : q.isEmpty) (t : Terminal) : ∃ outcome : Except QueryError Value,
    q.resolve t = outcome.map .done ∧
      (∀ b : Backend β σ, q.execute b t = .ofOutcome outcome) ∧
      ∀ (b : Backend β σ) (token : Token), q.executeLater b token t = .ofOutcome outcome := by
  have hresolve : ∃ outcome : Except QueryError Value, q.resolve t = outcome.map .done := by
    cases hrewrite : q.rewrite t with
    | error e => exact ⟨.error e, by rw [resolve, hrewrite]; rfl⟩
    | ok request =>
      obtain ⟨r, hr, -, rfl⟩ := rewrite_eq_ok.mp hrewrite
      have hempty : (r.of q).isEmpty := by
        rcases revisedFor_of_isEmpty h hr with rfl | ⟨f, -, hselect⟩
        · exact h
        · exact select_isEmpty h hselect
      refine ⟨t.aggregate.ofNoRows (t.resultTy (r.of q).elementTy), ?_⟩
      rw [resolve, hrewrite, Outcome.ok_bind, requestFor, shortCircuit?, if_pos hempty]
  obtain ⟨outcome, hresolve⟩ := hresolve
  refine ⟨outcome, hresolve, fun b => ?_, fun b token => ?_⟩
  · rw [execute, hresolve]
    cases outcome <;> rfl
  · rw [executeLater, hresolve]
    cases outcome <;> rfl

end Absorbing

/-! ### The query with the limit 0 -/

section NoRows

variable {q : Query β σ} {r : Revision (Query β σ)} {f p : Lambda} {t : Terminal}
  {W : Vocabulary}

/-- The query without its rows. -/
def noRows (q : Query β σ) : Query β σ :=
  q.withSource { q.source with take := some 0 }

theorem takeRows_zero (q : Query β σ) : (q.takeRows 0).of q = q.noRows := by
  rcases q.takeRows_cases 0 with ⟨hr, k, hk, htake⟩ | ⟨-, hr⟩ <;> rw [hr]
  · obtain rfl : k = 0 := Nat.le_zero.mp hk
    rw [noRows, ← htake]
    rfl
  · rfl

theorem isEmpty_noRows (q : Query β σ) : q.noRows.isEmpty := rfl

theorem filter_noRows (h : q.filter p = .ok r) : q.noRows.filter p = .ok .unchanged := by
  obtain ⟨hty, hbool, g, hg, -⟩ := filter_eq_ok h
  have hg' : q.noRows.onOrigin p = .ok g := hg
  have hcheck : checkParam "predicate" p q.noRows.elementTy = .ok () := if_pos hty
  rw [filter, hcheck, Outcome.ok_bind, if_pos hbool, hg', Outcome.ok_bind]
  rfl

theorem filterBy_noRows {p : Option Lambda} (h : q.filterBy p = .ok r) :
    q.noRows.filterBy p = .ok .unchanged ∧ (r.of q).SameView q := by
  cases p with
  | none =>
    obtain rfl := Except.ok.inj h
    exact ⟨rfl, .refl q⟩
  | some p => exact ⟨filter_noRows h, filter_sameView h⟩

theorem lastBy_noRows {p : Option Lambda} (h : q.lastBy p = .ok r) :
    q.noRows.lastBy p = .ok .unchanged ∧ (r.of q).SameView q := by
  obtain ⟨kept, hkept, hr⟩ := Outcome.bind_eq_ok.mp h
  obtain ⟨next, hnext, hof, -⟩ := Revision.andThen_eq_ok hr
  obtain ⟨hfilter, hsame⟩ := filterBy_noRows hkept
  constructor
  · rw [lastBy, hfilter, Outcome.ok_bind, Revision.andThen, Revision.of_unchanged,
      reverse_unchanged q.isEmpty_noRows]
    rfl
  · rw [hof]
    exact (reverse_sameView hnext).trans hsame

theorem fromIndex_noRows {index : Index} (h : q.fromIndex index = .ok r) :
    q.noRows.fromIndex index = .ok .unchanged ∧ (r.of q).SameView q := by
  have hordered : ∀ n, index = .fromEnd n → q.isOrdered := by
    rintro n rfl
    exact isOrdered_of_fromEnd h
  refine ⟨fromIndex_unchanged q.isEmpty_noRows hordered, ?_⟩
  match index with
  | .fromStart n =>
    obtain rfl := Except.ok.inj h
    exact q.skipRows_sameView n
  | .fromEnd 0 =>
    rw [fromIndex_fromEnd_zero (hordered 0 rfl)] at h
    obtain rfl := Except.ok.inj h
    exact q.takeRows_sameView 0
  | .fromEnd (k + 1) =>
    rw [fromIndex_fromEnd_succ (hordered (k + 1) rfl)] at h
    obtain ⟨turned, hturned, hr⟩ := Outcome.bind_eq_ok.mp h
    obtain ⟨next, hnext, hof, -⟩ := Revision.andThen_eq_ok hr
    obtain rfl := Except.ok.inj hnext
    rw [hof]
    exact (skipRows_sameView _ k).trans (reverse_sameView hturned)

/-! ### The type of what is projected -/

/-- A projection that is dropped gives the type of the origin, with or without rows. -/
theorem elementTy_of_project {s : Source β σ} {projection : Option Projection}
    (hf : f.FitsOn W s.origin) (h : s.project f = .ok projection) :
    (Query.mk s projection).elementTy = f.returnTy := by
  rcases Source.project_eq_ok h with ⟨hid, rfl⟩ | ⟨-, horigin, rfl⟩ | ⟨-, rfl⟩
  · exact hf.paramTy.symm.trans (hf.within.returnTy_of_isIdentity hid).symm
  · exact horigin.symm
  · exact hf.returnTy_fold

/-- An identity over what a query shows becomes its projection, if it has one. -/
theorem onOrigin_of_isIdentity (hty : f.paramTy = q.elementTy) (hid : f.isIdentity) :
    q.onOrigin f = .ok (q.projector.getD f) := by
  rw [onOrigin_eq]
  cases hp : q.projector with
  | none => rfl
  | some g =>
    rw [elementTy_of_projector hp] at hty
    have hcompose : g.andThen f = .ok g := by
      rw [Lambda.andThen, if_pos hty, if_pos hid]
    simp only [hcompose]
    rfl

/-- A query that is projected shows the type that the lambda has over the rows of the origin. -/
theorem elementTy_of_select (hW : W.Stable) (h : q.Over W) (hf : f.Over W)
    (hfits : f.param.Fits W.param) (hstep : q.select f = .ok r) :
    ∃ g, q.onOrigin f = .ok g ∧ (r.of q).elementTy = g.returnTy := by
  obtain ⟨hty, ⟨hid, rfl⟩ | ⟨g, projection, -, hg, hproject, hr⟩⟩ := select_eq_ok hstep
  · refine ⟨_, onOrigin_of_isIdentity hty hid, ?_⟩
    cases hp : q.projector with
    | none => exact hty.symm.trans (hf.returnTy_of_isIdentity hid).symm
    | some p => exact elementTy_of_projector hp
  · refine ⟨g, hg, ?_⟩
    rw [hr]
    exact elementTy_of_project (h.onOrigin hW hf hfits hty hg).1 hproject

theorem select_noRows (hW : W.Stable) (h : q.Over W) (hf : f.Over W) (hfits : f.param.Fits W.param)
    (hstep : q.select f = .ok r) : ∃ r₀, q.noRows.select f = .ok r₀ ∧
      (r₀.of q.noRows).elementTy = (r.of q).elementTy := by
  obtain ⟨g, hg, htype⟩ := elementTy_of_select hW h hf hfits hstep
  have haccepted : ∃ r₀, q.noRows.select f = .ok r₀ := by
    obtain ⟨hty, ⟨hid, -⟩ | ⟨g, projection, hdistinct, hg, -, -⟩⟩ := select_eq_ok hstep
    · exact ⟨_, select_of_isIdentity hty hid⟩
    · obtain ⟨projection₀, hproject⟩ := Source.exists_project (f := g) (.inl q.isEmpty_noRows)
      exact exists_select hty hdistinct hg hproject
  obtain ⟨r₀, hr₀⟩ := haccepted
  obtain ⟨g₀, hg₀, htype₀⟩ := elementTy_of_select hW (h.withRange _ _) hf hfits hr₀
  -- the rows of the origin are the same
  obtain rfl : g₀ = g := Except.ok.inj (hg₀.symm.trans hg)
  exact ⟨r₀, hr₀, htype₀.trans htype.symm⟩

/-- What a terminal asks about has rows of the same type where it has none. -/
theorem revisedFor_noRows (hW : W.Stable) (h : q.Over W)
    (ht : ∀ f, t.lambda? = some f → f.Over W ∧ f.param.Fits W.param)
    (hr : q.revisedFor t = .ok r) : (r.of q).backend = q.backend ∧
      ∃ r₀, q.noRows.revisedFor t = .ok r₀ ∧ (r₀.of q.noRows).elementTy = (r.of q).elementTy := by
  have hsame : q.noRows.revisedFor t = .ok .unchanged → (r.of q).SameView q →
      (r.of q).backend = q.backend ∧ ∃ r₀, q.noRows.revisedFor t = .ok r₀ ∧
        (r₀.of q.noRows).elementTy = (r.of q).elementTy := by
    intro hunchanged hview
    exact ⟨hview.backend, _, hunchanged, hview.elementTy.symm⟩
  have hselect : ∀ f, t.lambda? = some f → q.select f = .ok r →
      q.noRows.revisedFor t = q.noRows.select f → (r.of q).backend = q.backend ∧
        ∃ r₀, q.noRows.revisedFor t = .ok r₀ ∧
          (r₀.of q.noRows).elementTy = (r.of q).elementTy := by
    intro f hf hstep hrevised
    obtain ⟨r₀, hr₀, htype⟩ := select_noRows hW h (ht f hf).1 (ht f hf).2 hstep
    exact ⟨(step_frame (s := .select f) hstep).1, r₀, hrevised.trans hr₀, htype⟩
  cases t with
  | all p | contains v =>
    obtain ⟨p, hp, hr⟩ := Outcome.bind_eq_ok.mp hr
    exact hsame (Outcome.bind_eq_ok.mpr ⟨p, hp, filter_noRows hr⟩) (filter_sameView hr)
  | last p | lastOrDefault p => exact hsame (lastBy_noRows hr).1 (lastBy_noRows hr).2
  | average f | sum f | min f | max f =>
    cases f with
    | none =>
      obtain rfl := Except.ok.inj hr
      exact hsame rfl (.refl q)
    | some f => exact hselect f rfl hr rfl
  | elementAt index | elementAtOrDefault index =>
    exact hsame (fromIndex_noRows hr).1 (fromIndex_noRows hr).2
  | _ => exact hsame (filterBy_noRows hr).1 (filterBy_noRows hr).2

end NoRows
end Query

/-! ### Runs over no rows -/

/-- Whether a type is one in which an aggregate can be promised, which is a matter of its
answer for no rows. -/
def Aggregate.Asks (element ty : Ty) : Aggregate → Prop
  | .average | .minimum | .maximum => True
  | .sum => ty = element ∧ element.isNumeric
  | a => a.Promises element ty

theorem Terminal.asks (t : Terminal) {element : Ty} (h : t.addsUp → element.isNumeric) :
    t.aggregate.Asks element (t.resultTy element) := by
  cases t with
  | count p => exact .inl rfl
  | longCount p => exact .inr rfl
  | sum f => exact ⟨rfl, h rfl⟩
  | average f | min f | max f => trivial
  | _ => rfl

/-- Nothing adds up to the zero of a type of numbers. -/
theorem Tally.sum_zero {element : Ty} (h : element.isNumeric) :
    Tally.sum element .zero = .ok element.zero := by
  cases element with
  | int32 | int64 | float64 => rfl
  | float32 => exact congrArg (fun x => Except.ok (Value.float32 x)) nearestSingle_zero
  | _ => cases h

namespace Memory

variable {q : Query Memory σ} {ty : Ty}

theorem run_nil (h : q.backend.rows = []) : q.backend.run q = .ok [] := by
  have hlisted : q.listed q.backend.now [] = [] := by
    rw [Query.listed]
    cases q.isDistinct <;> rfl
  have hwindow : q.window ([] : List Value) = [] := by
    unfold Query.window window
    cases q.source.take <;> simp
  refine run_eq_ok.mpr ⟨[], ?_, by simp, ?_⟩
  · rw [h]
    cases q.source.predicate <;> rfl
  · rw [List.mergeSort_nil, hlisted]
    exact hwindow

/-- Rows that are limited cannot be sorted by themselves. -/
theorem orderByRows_limited (hempty : q.isEmpty = false) (hrange : q.hasRange) (ascending : Bool) :
    q.keepRepeats.orderByRows ascending = .error (.invalidComposition .orderAfterRange) := by
  have hempty' : ¬q.keepRepeats.source.isEmpty = true := by
    rw [Query.source_keepRepeats]
    exact Bool.eq_false_iff.mp hempty
  have hrange' : q.keepRepeats.source.hasRange := by
    rw [Query.source_keepRepeats]
    exact hrange
  rw [Query.orderByRows, Source.orderBy, if_neg hempty', if_pos hrange']
  rfl

/-- The least or greatest of no rows is looked for in vain, or the question is refused. -/
theorem aggregate_extreme_nothing (hempty : q.isEmpty = false) (h : q.backend.rows = [])
    (ascending : Bool) : RefusedOr (Memory.backend.aggregate q (.extreme ascending)).outcome
      (.error .emptyResult) := by
  by_cases hrange : q.hasRange
  · right
    have hfirst : q.asFirst? (.extreme ascending) = if q.showsRecords then .ok none
        else .error (.invalidComposition .orderAfterRange) := by
      have hsorted := congrArg (·.map some) (orderByRows_limited hempty hrange ascending)
      split
      · next hrecords => cases ascending <;> exact if_pos hrecords
      · next hrecords => cases ascending <;> exact (if_neg hrecords).trans hsorted
    show ∃ e : QueryError, e.IsRefusal ∧
      (Producer.answerBy _ (Memory.producer.readAggregate · _) q _).outcome = _
    by_cases hrecords : q.showsRecords
    · simp only [Producer.answerBy, shortCircuit?_eq_none hempty, hfirst, if_pos hrecords]
      cases ascending <;> exact ⟨.notSupported _, trivial, rfl⟩
    · simp only [Producer.answerBy, shortCircuit?_eq_none hempty, hfirst, if_neg hrecords]
      exact ⟨.invalidComposition _, trivial, rfl⟩
  · rw [aggregate_extreme_eq (Bool.eq_false_iff.mpr hrange)]
    by_cases hrecords : q.showsRecords
    · rw [if_pos hrecords]
      exact .inr ⟨.notSupported _, trivial, rfl⟩
    · rw [if_neg hrecords]
      have hrun : (q.byRows ascending).backend.run (q.byRows ascending) = .ok [] := run_nil h
      exact .inl (read_one hrun (Producer.rowOr (.error .emptyResult)))

/-- A scan of no rows ends as it begins. -/
theorem read_all_nothing {α : Type} (h : q.backend.rows = [])
    (step : Tally → Value → Except QueryError Tally) (f : Tally → Except QueryError α) :
    ((Memory.producer.read q (Rows.foldAll step .zero)).andThen f).outcome = f .zero := by
  rw [Run.andThen, read_outcome, run_nil h]
  rfl

/-- Rows that are not there are aggregated as is said for a query that is known to have none,
or the aggregate is refused. -/
theorem aggregate_nothing (hempty : q.isEmpty = false) (h : q.backend.rows = [])
    (hscans : q.backend.allowsFullScans) {a : Aggregate} (ha : a.Asks q.elementTy ty) :
    RefusedOr ((Memory.backend.aggregate q a).outcome.bind (coerceResult ty))
      (a.ofNoRows ty) := by
  have hlist : ∀ {answer}, a.Promises q.elementTy ty → a.onList ty [] = some answer →
      (Memory.backend.aggregate q a).outcome.bind (coerceResult ty) = a.ofNoRows ty := by
    intro answer hpromises hanswer
    rw [aggregate_onList hempty (run_nil h) (fun _ => hscans) nofun hpromises hanswer]
    exact (Query.ofNoRows_onList hpromises hanswer).symm
  cases a with
  | minimum => exact (aggregate_extreme_nothing hempty h true).bind _
  | maximum => exact (aggregate_extreme_nothing hempty h false).bind _
  | sum =>
    obtain ⟨rfl, hnumeric⟩ := ha
    have hscan : (Memory.backend.aggregate q .sum).outcome = Tally.sum q.elementTy .zero := by
      rw [aggregate_eq hempty (by decide) (by decide)]
      exact (congrArg Run.outcome (if_pos hscans)).trans (read_all_nothing h _ _)
    rw [hscan, Tally.sum_zero hnumeric]
    exact .inl (coerceResult_eq (Ty.admits_zero _))
  | average =>
    have hscan : (Memory.backend.aggregate q .average).outcome = .error .emptyResult := by
      rw [aggregate_eq hempty (by decide) (by decide)]
      exact (congrArg Run.outcome (if_pos hscans)).trans (read_all_nothing h _ _)
    rw [hscan]
    exact .inl rfl
  | _ => exact .inl (hlist ha rfl)

end Memory

/-! ### Terminals with and without rows -/

namespace Query

variable {W : Vocabulary} {q : Query Memory σ} {t : Terminal}

/-- A terminal over no rows in memory is answered as is said for the query without rows, or
refused. -/
theorem execute_noRows (hW : W.Stable) (h : q.Over W)
    (ht : ∀ f, t.lambda? = some f → f.Over W ∧ f.param.Fits W.param)
    (hrows : q.backend.rows = []) (hscans : q.backend.allowsFullScans) :
    RefusedOr (q.execute Memory.backend t).outcome
      (q.noRows.execute Memory.backend t).outcome := by
  cases hrewrite : q.rewrite t with
  | error e =>
    have hrefused : (q.execute Memory.backend t).outcome = .error e := by
      rw [execute, resolve, hrewrite]
      rfl
    exact .inr ⟨e, (q.rewrite_refuses t).of_error hrewrite, hrefused⟩
  | ok request =>
    obtain ⟨r, hr, hnumeric, rfl⟩ := rewrite_eq_ok.mp hrewrite
    obtain ⟨hbackend, r₀, hr₀, htype⟩ := revisedFor_noRows hW h ht hr
    have hrewrite₀ : q.noRows.rewrite t = .ok (q.noRows.requestFor t r₀) := by
      refine rewrite_eq_ok.mpr ⟨r₀, hr₀, ?_, rfl⟩
      rw [htype]
      exact hnumeric
    have hempty₀ : (r₀.of q.noRows).isEmpty := by
      rcases revisedFor_of_isEmpty q.isEmpty_noRows hr₀ with rfl | ⟨f, -, hselect⟩
      · rfl
      · exact select_isEmpty q.isEmpty_noRows hselect
    have hanswer₀ : (q.noRows.execute Memory.backend t).outcome =
        t.aggregate.ofNoRows (t.resultTy (r.of q).elementTy) := by
      rw [execute_eq hrewrite₀, ← htype]
      exact if_pos hempty₀
    rw [hanswer₀, execute_eq hrewrite]
    by_cases hempty : (r.of q).isEmpty
    · exact .inl (if_pos hempty)
    · rw [← hbackend] at hrows hscans
      have hnothing := Memory.aggregate_nothing (Bool.eq_false_iff.mpr hempty) hrows hscans
        (t.asks hnumeric)
      rw [show (q.requestFor t r).query.isEmpty = false from Bool.eq_false_iff.mpr hempty]
      exact hnothing

/-- A query with the limit 0 keeps it whatever is done to it, stays the very query unless it
is projected or handed a state, and is answered alike over every backend, which is not
asked. Over no rows in memory its answers are those of the query without the limit. -/
theorem isEmpty_absorbing {β : Type} (types : Nat → Ty) :
    (∀ q : Query β σ, q.source.take = some 0 →
      (∀ s r, q.step s = .ok r →
        (s.renews = false → r = .unchanged) ∧ (r.of q).source.take = some 0) ∧
      (∀ ops q', q.steps ops = .ok q' → q'.source.take = some 0) ∧
      ∀ t, (∀ request, q.resolve t ≠ .ok (.ask request)) ∧
        ∃ outcome, ∀ b : Backend β σ, q.execute b t = .ofOutcome outcome ∧
          ∀ token, q.executeLater b token t = .ofOutcome outcome) ∧
    ∀ m : Memory, m.rows = [] → m.allowsFullScans → ∀ (ops : List (Step σ)) (q : Query Memory σ),
      (∀ s ∈ ops, ∀ f, s.lambda? = some f → f.IsBuilt types) → m.query.steps ops = .ok q →
      ∀ t : Terminal, (∀ f, t.lambda? = some f → f.IsBuilt types) →
      ∃ r, q.take 0 = .ok r ∧
        ((∃ v, (q.execute Memory.backend t).outcome = .ok v) ∨
            (q.execute Memory.backend t).outcome = .error .emptyResult →
          ((r.of q).execute Memory.backend t).outcome = (q.execute Memory.backend t).outcome) := by
  constructor
  · intro q hlimit
    have h : q.isEmpty := Source.isEmpty_iff.mpr hlimit
    refine ⟨fun s r hstep => ?_, fun ops q' hsteps => ?_, fun t => ?_⟩
    · obtain ⟨hempty, hsame⟩ := step_of_isEmpty h hstep
      exact ⟨hsame, Source.isEmpty_iff.mp hempty⟩
    · exact Source.isEmpty_iff.mp (steps_of_isEmpty h hsteps)
    · obtain ⟨outcome, hresolve, hexecute, hlater⟩ := execute_of_isEmpty h t
      refine ⟨fun request hask => ?_, outcome, fun b => ⟨hexecute b, hlater b⟩⟩
      rw [hresolve] at hask
      cases outcome <;> cases hask
  · intro m hrows hscans ops q hops hsteps t ht
    have hstable := Vocabulary.stable_mentioning (Param.IsTyped types)
    have hq : q.Over (.typedTerms types) := by
      refine (Over.ofBackend m m.origin).steps hstable (fun s hs f hf => ?_) hsteps
      exact (hops s hs f hf).over_typedTerms
    have hbackend : q.backend = m := (steps_frame hsteps).1
    have hanswers := execute_noRows hstable hq (fun f hf => (ht f hf).over_typedTerms)
      (hbackend ▸ hrows) (hbackend ▸ hscans)
    refine ⟨q.takeRows 0, rfl, fun hanswer => ?_⟩
    rw [takeRows_zero]
    exact (hanswers.eq_of_answer hanswer).symm

/-- Negated numbers of which none are kept, and the sum of no numbers. -/
theorem isEmpty_absorbing_sum :
    let x : Param := ⟨0, "x", .int32⟩
    let negated : Lambda := ⟨x, .unary .negate (.param x) .int32⟩
    let m : Memory := ⟨"numbers", .int32, [], true, 0⟩
    let ops : List (Step Unit) := [.orderBy (.identity x) true true, .select negated]
    ∃ q r, m.query.steps ops = .ok q ∧ q.take 0 = .ok r ∧
      (r.of q).source.take = some 0 ∧ (r.of q).reverse = .ok .unchanged ∧
      (∀ request, (r.of q).resolve (.sum (some negated)) ≠ .ok (.ask request)) ∧
      (q.execute Memory.backend (.sum (some negated))).outcome = .ok (.int32 0) ∧
      ((r.of q).execute Memory.backend (.sum (some negated))).outcome = .ok (.int32 0) := by
  intro x negated m ops
  let types : Nat → Ty := fun _ => .int32
  have hnegate : Expr.mkUnary .negate (.param x) = .ok negated.body := rfl
  have hidentity : (Lambda.identity x).IsBuilt types := by
    refine ⟨.param x, rfl, ?_⟩
    simp [Lambda.identity, Expr.nodes, Param.IsTyped, x, types]
  have hnegated : negated.IsBuilt types := by
    refine ⟨.unary (.param x) hnegate, rfl, ?_⟩
    simp [negated, Expr.nodes, Param.IsTyped, x, types]
  have hops : ∀ s ∈ ops, ∀ f, s.lambda? = some f → f.IsBuilt types := by
    simp [ops, Step.lambda?, hidentity, hnegated]
  have hselector : ∀ f, (Terminal.sum (some negated)).lambda? = some f → f.IsBuilt types := by
    rintro _ ⟨⟩
    exact hnegated
  obtain ⟨q, hq, hsum⟩ : ∃ q, m.query.steps ops = .ok q ∧
      (q.execute Memory.backend (.sum (some negated))).outcome = .ok (.int32 0) :=
    ⟨_, rfl, by cbv⟩
  obtain ⟨habsorbing, hanswers⟩ := isEmpty_absorbing (β := Memory) (σ := Unit) types
  obtain ⟨r, hr, hsame⟩ := hanswers m rfl rfl ops q hops hq (.sum (some negated)) hselector
  have hlimit : (r.of q).source.take = some 0 := by
    obtain rfl : q.takeRows 0 = r := Except.ok.inj hr
    rw [takeRows_zero]
    rfl
  have hreverse : (r.of q).reverse = .ok .unchanged :=
    reverse_unchanged (Source.isEmpty_iff.mpr hlimit)
  obtain ⟨-, -, hresolved⟩ := habsorbing (r.of q) hlimit
  exact ⟨q, r, hq, hr, hlimit, hreverse, (hresolved _).1, hsum, (hsame (.inl ⟨_, hsum⟩)).trans hsum⟩

end Query
end SeqQuery
