/-
# What operations make of a query

For every operation there is one lemma that says all it can do when it is accepted: leave
the query as it is, and why, or change it, and how. What is kept by every operation, and
so by every chain of operations, is proved from these alone.

Key definitions: `Query.sortedBy`, `Query.SameView`.
Key theorems: `Query.filter_eq_ok`, `Query.orderBy_eq_ok`, `Query.reverse_eq_ok`,
`Query.select_eq_ok`, `Query.distinct_eq_ok`, `Query.forall_clauses_added`,
`Query.step_sameView`, `Query.steps_cons_eq_ok`, `Query.steps_append_eq_ok`,
`Query.steps_keep`.
-/
import SeqQuery.Proofs.Outcome
import SeqQuery.Query.Compose

namespace SeqQuery

variable {β σ : Type} {q q' : Query β σ} {r : Revision (Query β σ)} {f p : Lambda}

namespace Source

variable {s : Source β σ}

theorem hasRange_eq_false : s.hasRange = false ↔ s.skip = 0 ∧ s.take = none := by
  simp [hasRange]

theorem isEmpty_iff : s.isEmpty ↔ s.take = some 0 :=
  beq_iff_eq

theorem isEmpty_of_hasRange (h : s.hasRange = false) : s.isEmpty = false := by
  rw [Bool.eq_false_iff, Ne, isEmpty_iff, (hasRange_eq_false.mp h).2]
  nofun

/-- A projection is dropped when it is an identity. Nothing else can be put on rows that
are skipped or limited, unless there are none. -/
theorem project_eq_ok {projection : Option Projection} (h : s.project f = .ok projection) :
    (f.isIdentity ∧ projection = none) ∨
      (s.isEmpty ∧ f.returnTy = s.origin ∧ projection = none) ∨
      ((s.isEmpty ∨ s.hasRange = false) ∧ projection = some ⟨f.fold, false⟩) := by
  unfold project at h
  split at h
  · next hid => exact .inl ⟨hid, (Except.ok.inj h).symm⟩
  · split at h
    · next hempty =>
      obtain rfl := Except.ok.inj h
      by_cases hty : f.returnTy = s.origin
      · exact .inr (.inl ⟨hempty, hty, if_pos hty⟩)
      · exact .inr (.inr ⟨.inl hempty, if_neg hty⟩)
    · split at h
      · cases h
      · next hrange =>
        exact .inr (.inr ⟨.inr (Bool.eq_false_iff.mpr hrange), (Except.ok.inj h).symm⟩)

/-- A projection can be put on rows that are not limited, or where there are none. -/
theorem exists_project (h : s.isEmpty ∨ s.hasRange = false) :
    ∃ projection, s.project f = .ok projection := by
  unfold project
  by_cases hid : f.isIdentity
  · exact ⟨none, if_pos hid⟩
  · rw [if_neg hid]
    by_cases hempty : s.isEmpty
    · exact ⟨_, if_pos hempty⟩
    · rw [if_neg hempty, h.resolve_left hempty]
      exact ⟨_, rfl⟩

/-- A sort key starts an order or is added to it, unless there are no rows. Rows that are
skipped or limited cannot be sorted. -/
theorem orderBy_eq_ok {key : Lambda} {newGroup ascending : Bool} {r : Revision (Source β σ)}
    (h : s.orderBy key newGroup ascending = .ok r) :
    (r = .unchanged ∧ s.isEmpty) ∨ (s.hasRange = false ∧ r = .revised { s with
      sorting := some (match s.sorting with
        | none => .start key.fold ascending
        | some sorting => sorting.push key.fold newGroup ascending) }) := by
  unfold orderBy at h
  split at h
  · next hempty => exact .inl ⟨(Except.ok.inj h).symm, hempty⟩
  · split at h
    · cases h
    · next hrange => exact .inr ⟨Bool.eq_false_iff.mpr hrange, (Except.ok.inj h).symm⟩

end Source

/-! ### Sort keys and clauses -/

namespace Sorting

variable {P : Lambda → Prop}

theorem forall_grouped (reversed : Bool) : ∀ (group : List SortClause) (ks : List SortKey),
    (∀ c ∈ grouped reversed group ks, P c.key) ↔
      (∀ c ∈ group, P c.key) ∧ ∀ k ∈ ks, P k.key
  | group, [] => by simp [grouped]
  | group, k :: older => by
    rw [grouped]
    split
    · rw [List.cons_append, List.forall_mem_cons, List.forall_mem_append,
        forall_grouped reversed [] older, List.forall_mem_cons]
      simp [clause, and_left_comm]
    · rw [forall_grouped reversed _ older, List.forall_mem_cons, List.forall_mem_cons]
      simp [clause, and_assoc, and_left_comm]

/-- The clauses have the keys that were added. -/
theorem forall_clauses {s : Sorting} :
    (∀ c ∈ s.clauses, P c.key) ↔ ∀ k ∈ s.keys, P k.key := by
  rw [clauses, forall_grouped]
  simp

theorem forall_clauses_start {key : Lambda} {ascending : Bool} :
    (∀ c ∈ (start key ascending).clauses, P c.key) ↔ P key := by
  rw [forall_clauses]
  simp [start, keys]

theorem forall_clauses_push {s : Sorting} {key : Lambda} {newGroup ascending : Bool} :
    (∀ c ∈ (s.push key newGroup ascending).clauses, P c.key) ↔
      P key ∧ ∀ c ∈ s.clauses, P c.key := by
  rw [forall_clauses, forall_clauses]
  simp [push, keys]

theorem forall_clauses_reverse {s : Sorting} :
    (∀ c ∈ s.reverse.clauses, P c.key) ↔ ∀ c ∈ s.clauses, P c.key := by
  rw [forall_clauses, forall_clauses]
  rfl

end Sorting

namespace Query

/-- The same query in an order. -/
def sortedBy (q : Query β σ) (s : Sorting) : Query β σ :=
  q.withSource { q.source with sorting := some s }

theorem isEmpty_of_hasRange (h : q.hasRange = false) : q.isEmpty = false :=
  Source.isEmpty_of_hasRange h

theorem source_keepRepeats (q : Query β σ) : q.keepRepeats.source = q.source := by
  unfold keepRepeats
  split
  · split <;> rfl
  · rfl

/-- A lambda passes the check in front of an operation exactly when it is over the type. -/
theorem checkParam_bind_eq_ok {α : Type} {name : String} {ty : Ty} {x : Except QueryError α}
    {a : α} : (checkParam name p ty >>= fun _ => x) = .ok a ↔ p.paramTy = ty ∧ x = .ok a := by
  rw [Outcome.check_bind_eq_ok, checkParam, Outcome.guard_eq_ok, and_iff_left rfl]

theorem elementTy_of_projector {f : Lambda} (h : q.projector = some f) :
    q.elementTy = f.returnTy := by
  obtain ⟨p, hp, rfl⟩ := Option.map_eq_some_iff.mp h
  simp [elementTy, hp]

theorem elementTy_of_none (h : q.projector = none) : q.elementTy = q.source.origin := by
  simp only [elementTy, Option.map_eq_none_iff.mp h]

theorem onOrigin_eq (f : Lambda) : q.onOrigin f =
    match q.projector with
    | none => .ok f
    | some g => (g.andThen f).mapError .mergeFailure := by
  unfold onOrigin projector
  cases q.projection <;> rfl

/-- A filter comes down to a predicate over the rows of the origin. It changes nothing when
there are no rows or every row passes, and else that predicate is the filter or is joined
to the filter so far. -/
theorem filter_eq_ok (h : q.filter p = .ok r) :
    p.paramTy = q.elementTy ∧ p.returnTy = .bool ∧ ∃ g, q.onOrigin p = .ok g ∧
      ((r = .unchanged ∧ (q.isEmpty ∨ g.fold.body.constantBool? = some true)) ∨
        (q.hasRange = false ∧ ∃ joined,
          r = .revised (q.withSource { q.source with predicate := some joined }) ∧
            ((q.source.predicate = none ∧ joined = g.fold) ∨
              ∃ existing, q.source.predicate = some existing ∧
                existing.conjoin g.fold = .ok joined))) := by
  obtain ⟨hty, h⟩ := checkParam_bind_eq_ok.mp h
  split at h
  · next hbool =>
    obtain ⟨g, hg, h⟩ := Outcome.bind_eq_ok.mp h
    obtain ⟨rev, hrev, h⟩ := Outcome.bind_eq_ok.mp h
    obtain rfl := Except.ok.inj h
    refine ⟨hty, hbool, g, hg, ?_⟩
    unfold Source.filter at hrev
    split at hrev
    · next hempty =>
      obtain rfl := Except.ok.inj hrev
      exact .inl ⟨rfl, .inl hempty⟩
    · simp only at hrev
      split at hrev
      · next hconst =>
        obtain rfl := Except.ok.inj hrev
        exact .inl ⟨rfl, .inr hconst⟩
      · split at hrev
        · cases hrev
        · next hrange =>
          right
          refine ⟨Bool.eq_false_iff.mpr hrange, ?_⟩
          split at hrev
          · next hnone =>
            obtain rfl := Except.ok.inj hrev
            exact ⟨_, rfl, .inl ⟨hnone, rfl⟩⟩
          · next existing hsome =>
            obtain ⟨joined, hjoined, hrev⟩ := Outcome.bind_eq_ok.mp hrev
            obtain rfl := Except.ok.inj hrev
            exact ⟨joined, rfl, .inr ⟨existing, hsome, Outcome.mapError_eq_ok.mp hjoined⟩⟩
  · cases h

/-- Skipping rows changes nothing when none are skipped or left, and else the row limits. -/
theorem skip_eq_ok {n : Int64} (h : q.skip n = .ok r) :
    0 ≤ n.toInt ∧ r = q.skipRows n.toInt.toNat := by
  obtain ⟨count, hcount, rfl⟩ := Outcome.map_eq_ok.mp h
  obtain ⟨hn, rfl⟩ := Outcome.guard_eq_ok.mp hcount
  exact ⟨hn, rfl⟩

theorem take_eq_ok {n : Int64} (h : q.take n = .ok r) :
    0 ≤ n.toInt ∧ r = q.takeRows n.toInt.toNat := by
  obtain ⟨count, hcount, rfl⟩ := Outcome.map_eq_ok.mp h
  obtain ⟨hn, rfl⟩ := Outcome.guard_eq_ok.mp hcount
  exact ⟨hn, rfl⟩

theorem skipRows_cases (q : Query β σ) (n : Nat) :
    (q.skipRows n = .unchanged ∧ (n = 0 ∨ q.isEmpty)) ∨
      q.skipRows n = .revised (q.withSource { q.source with
        skip := min (q.source.skip + n) maxRows, take := q.source.take.map (· - n) }) := by
  unfold skipRows Source.skipRows
  split
  · next h => exact .inl ⟨rfl, h⟩
  · exact .inr rfl

theorem takeRows_cases (q : Query β σ) (n : Nat) :
    (q.takeRows n = .unchanged ∧ ∃ k ≤ n, q.source.take = some k) ∨
      ((∀ k, q.source.take = some k → n < k) ∧
        q.takeRows n = .revised (q.withSource { q.source with take := some n })) := by
  unfold takeRows Source.takeRows
  cases q.source.take with
  | none => exact .inr ⟨nofun, rfl⟩
  | some k =>
    by_cases hk : k ≤ n
    · refine .inl ⟨?_, k, hk, rfl⟩
      simp [hk, Revision.map]
    · refine .inr ⟨?_, ?_⟩
      · rintro _ ⟨⟩
        omega
      · simp [hk, Revision.map]

/-- A query with a limit keeps to it. -/
theorem takeRows_take (q : Query β σ) (n : Nat) :
    ∃ k ≤ n, ((q.takeRows n).of q).source.take = some k := by
  rcases takeRows_cases q n with ⟨hr, k, hk, htake⟩ | ⟨-, hr⟩
  · rw [hr]
    exact ⟨k, hk, htake⟩
  · rw [hr]
    exact ⟨n, Nat.le_refl n, rfl⟩

/-- A key becomes one over the rows of the origin, which starts an order or is added to it. -/
theorem orderBy_eq_ok {key : Lambda} {newGroup ascending : Bool}
    (h : q.orderBy key newGroup ascending = .ok r) :
    key.paramTy = q.elementTy ∧ ∃ g, q.onOrigin key = .ok g ∧
      ((r = .unchanged ∧ q.isEmpty) ∨ (q.hasRange = false ∧ r = .revised (q.sortedBy
        (match q.source.sorting with
          | none => .start g.fold ascending
          | some s => s.push g.fold newGroup ascending)))) := by
  obtain ⟨hty, h⟩ := checkParam_bind_eq_ok.mp h
  obtain ⟨g, hg, h⟩ := Outcome.bind_eq_ok.mp h
  obtain ⟨rev, hrev, h⟩ := Outcome.bind_eq_ok.mp h
  obtain rfl := Except.ok.inj h
  refine ⟨hty, g, hg, ?_⟩
  rcases Source.orderBy_eq_ok hrev with ⟨rfl, hempty⟩ | ⟨hrange, rfl⟩
  · exact .inl ⟨rfl, hempty⟩
  · exact .inr ⟨hrange, rfl⟩

/-- Only a query with an order can be turned over, unless it has no rows. -/
theorem reverse_eq_ok (h : q.reverse = .ok r) : (r = .unchanged ∧ q.isEmpty) ∨
    (q.hasRange = false ∧ ∃ s, q.source.sorting = some s ∧
      r = .revised (q.sortedBy s.reverse)) := by
  obtain ⟨rev, hrev, rfl⟩ := Outcome.map_eq_ok.mp h
  unfold Source.reverse at hrev
  split at hrev
  · next hempty =>
    obtain rfl := Except.ok.inj hrev
    exact .inl ⟨rfl, hempty⟩
  · split at hrev
    · cases hrev
    · next hrange =>
      split at hrev
      · cases hrev
      · next s hs =>
        obtain rfl := Except.ok.inj hrev
        exact .inr ⟨Bool.eq_false_iff.mpr hrange, s, hs, rfl⟩

/-- A projection that is no identity makes one projection of the origin, unless repeats are
dropped. -/
theorem select_eq_ok (h : q.select f = .ok r) :
    f.paramTy = q.elementTy ∧ ((f.isIdentity ∧ r = .unchanged) ∨
      ∃ g projection, q.isDistinct = false ∧ q.onOrigin f = .ok g ∧
        q.source.project g = .ok projection ∧ r.of q = ⟨q.source, projection⟩) := by
  obtain ⟨hty, h⟩ := checkParam_bind_eq_ok.mp h
  refine ⟨hty, ?_⟩
  split at h
  · next hid => exact .inl ⟨hid, (Except.ok.inj h).symm⟩
  · right
    obtain ⟨source, projection⟩ := q
    split at h
    · next hp =>
      obtain rfl : projection = none := hp
      obtain ⟨next, hnext, h⟩ := Outcome.bind_eq_ok.mp h
      refine ⟨f, next, rfl, rfl, hnext, ?_⟩
      cases next with
      | none =>
        obtain rfl := Except.ok.inj h
        rfl
      | some g =>
        obtain rfl := Except.ok.inj h
        rfl
    · next g hp =>
      obtain rfl : projection = some ⟨g, false⟩ := hp
      obtain ⟨composed, hcomposed, h⟩ := Outcome.bind_eq_ok.mp h
      obtain ⟨next, hnext, h⟩ := Outcome.bind_eq_ok.mp h
      obtain rfl := Except.ok.inj h
      exact ⟨composed, next, rfl, hcomposed, hnext, rfl⟩
    · cases h

theorem select_of_isIdentity (hty : f.paramTy = q.elementTy) (hid : f.isIdentity) :
    q.select f = .ok .unchanged := by
  rw [select, checkParam, if_pos hty, Outcome.ok_bind, if_pos hid]

/-- A lambda that makes a projection of the origin is accepted, unless repeats are dropped. -/
theorem exists_select {g : Lambda} {next : Option Projection} (hty : f.paramTy = q.elementTy)
    (hdistinct : q.isDistinct = false) (hg : q.onOrigin f = .ok g)
    (hproject : q.source.project g = .ok next) : ∃ r, q.select f = .ok r := by
  by_cases hid : f.isIdentity
  · exact ⟨_, select_of_isIdentity hty hid⟩
  · obtain ⟨source, projection⟩ := q
    simp only [Query.select, checkParam, hty, if_true, Outcome.ok_bind]
    rw [if_neg hid]
    cases projection with
    | none =>
      obtain rfl := Except.ok.inj hg
      simp only [hproject, Outcome.ok_bind]
      cases next with
      | none => exact ⟨_, rfl⟩
      | some p => exact ⟨_, rfl⟩
    | some p =>
      obtain ⟨h, flag⟩ := p
      obtain rfl : flag = false := hdistinct
      replace hg : (h.andThen f).mapError QueryError.mergeFailure = .ok g := hg
      simp only [hg, hproject, Outcome.ok_bind]
      exact ⟨_, rfl⟩

/-- Repeats can be dropped, or no longer dropped, from a projection alone. -/
theorem distinct_eq_ok {flag : Bool} (h : q.distinct flag = .ok r) :
    (r = .unchanged ∧ (q.isEmpty ∨ q.isDistinct = flag)) ∨
      ∃ f, q.projection = some ⟨f, !flag⟩ ∧ (flag = true → q.hasRange = false) ∧
        r = .revised ⟨q.source, some ⟨f, flag⟩⟩ := by
  unfold distinct at h
  split at h
  · next hp =>
    split at h
    · next hskip =>
      refine .inl ⟨(Except.ok.inj h).symm, ?_⟩
      rcases Bool.or_eq_true_iff.mp hskip with hflag | hempty
      · have hfalse : flag = false := by simpa using hflag
        rw [hfalse, isDistinct, hp]
        exact .inr rfl
      · exact .inl hempty
    · cases h
  · next p hp =>
    obtain ⟨f, dropped⟩ := p
    split at h
    · next hskip =>
      refine .inl ⟨(Except.ok.inj h).symm, ?_⟩
      rcases Bool.or_eq_true_iff.mp hskip with hflag | hempty
      · rw [isDistinct, hp]
        exact .inr (eq_of_beq hflag)
      · exact .inl hempty
    · next hskip =>
      split at h
      · cases h
      · next hrange =>
        right
        obtain rfl := Except.ok.inj h
        refine ⟨f, ?_, ?_, rfl⟩
        · cases dropped <;> cases flag <;> simp_all
        · rintro rfl
          simpa using hrange

/-! ### The keys of a query -/

theorem clauses_of_none (h : q.source.sorting = none) : q.clauses = [] := by
  rw [clauses, h]

theorem clauses_of_some {s : Sorting} (h : q.source.sorting = some s) :
    q.clauses = s.clauses := by
  rw [clauses, h]

/-- The clauses after a key was added have that key and the keys so far. -/
theorem forall_clauses_added {P : Lambda → Prop} {key : Lambda} {newGroup ascending : Bool} :
    (∀ c ∈ (q.sortedBy (match q.source.sorting with
      | none => .start key ascending
      | some s => s.push key newGroup ascending)).clauses, P c.key) ↔
      P key ∧ ∀ c ∈ q.clauses, P c.key := by
  cases hsorting : q.source.sorting with
  | none =>
    rw [clauses_of_none hsorting, clauses_of_some rfl, Sorting.forall_clauses_start]
    simp
  | some s => rw [clauses_of_some hsorting, clauses_of_some rfl, Sorting.forall_clauses_push]

/-! ### What a query shows -/

/-- Queries over one backend that show its rows alike. -/
structure SameView (q' q : Query β σ) : Prop where
  backend : q'.backend = q.backend
  origin : q'.originTy = q.originTy
  projection : q'.projection = q.projection

namespace SameView

theorem refl (q : Query β σ) : q.SameView q :=
  ⟨rfl, rfl, rfl⟩

theorem trans {q'' : Query β σ} (h : q''.SameView q') (h' : q'.SameView q) : q''.SameView q :=
  ⟨h.backend.trans h'.backend, h.origin.trans h'.origin, h.projection.trans h'.projection⟩

theorem projector (h : q'.SameView q) : q'.projector = q.projector :=
  congrArg (Option.map _) h.projection

theorem elementTy (h : q'.SameView q) : q'.elementTy = q.elementTy := by
  have horigin : q'.source.origin = q.source.origin := h.origin
  rw [Query.elementTy, Query.elementTy, h.projection, horigin]

end SameView

theorem filter_sameView (h : q.filter p = .ok r) : (r.of q).SameView q := by
  obtain ⟨-, -, g, -, ⟨rfl, -⟩ | ⟨-, joined, rfl, -⟩⟩ := filter_eq_ok h
  · exact .refl q
  · exact ⟨rfl, rfl, rfl⟩

theorem skipRows_sameView (q : Query β σ) (n : Nat) : ((q.skipRows n).of q).SameView q := by
  rcases q.skipRows_cases n with ⟨hr, -⟩ | hr <;> rw [hr]
  · exact .refl q
  · exact ⟨rfl, rfl, rfl⟩

theorem takeRows_sameView (q : Query β σ) (n : Nat) : ((q.takeRows n).of q).SameView q := by
  rcases q.takeRows_cases n with ⟨hr, -⟩ | ⟨-, hr⟩ <;> rw [hr]
  · exact .refl q
  · exact ⟨rfl, rfl, rfl⟩

theorem reverse_sameView (h : q.reverse = .ok r) : (r.of q).SameView q := by
  rcases reverse_eq_ok h with ⟨rfl, -⟩ | ⟨-, s, -, rfl⟩
  · exact .refl q
  · exact ⟨rfl, rfl, rfl⟩

/-- Only projecting and dropping repeats change what a query shows. -/
theorem step_sameView {s : Step σ} (hstep : q.step s = .ok r) :
    (∃ f, s = .select f) ∨ (∃ flag, s = .distinct flag) ∨ (r.of q).SameView q := by
  cases s with
  | select f => exact .inl ⟨f, rfl⟩
  | distinct flag => exact .inr (.inl ⟨flag, rfl⟩)
  | filter p => exact .inr (.inr (filter_sameView hstep))
  | skip n =>
    obtain ⟨-, rfl⟩ := skip_eq_ok hstep
    exact .inr (.inr (q.skipRows_sameView _))
  | take n =>
    obtain ⟨-, rfl⟩ := take_eq_ok hstep
    exact .inr (.inr (q.takeRows_sameView _))
  | orderBy key newGroup ascending =>
    obtain ⟨-, g, -, ⟨rfl, -⟩ | ⟨-, rfl⟩⟩ := orderBy_eq_ok hstep
    · exact .inr (.inr (.refl q))
    · exact .inr (.inr ⟨rfl, rfl, rfl⟩)
  | reverse => exact .inr (.inr (reverse_sameView hstep))
  | withState state =>
    obtain rfl := Except.ok.inj hstep
    exact .inr (.inr ⟨rfl, rfl, rfl⟩)

/-- The state that an operation hands to the backend, if it does. -/
def Step.state? : Step σ → Option σ
  | .withState state => some state
  | .filter _ | .skip _ | .take _ | .orderBy .. | .reverse | .select _ | .distinct _ => none

/-- Every operation leaves the backend and the origin, and all but one the backend's state. -/
theorem step_frame {s : Step σ} (hstep : q.step s = .ok r) : (r.of q).backend = q.backend ∧
    (r.of q).originTy = q.originTy ∧ (r.of q).state = s.state?.or q.state := by
  cases s with
  | filter f =>
    obtain ⟨-, -, g, -, ⟨rfl, -⟩ | ⟨-, joined, rfl, -⟩⟩ := filter_eq_ok hstep <;>
      exact ⟨rfl, rfl, rfl⟩
  | skip n =>
    obtain ⟨-, rfl⟩ := skip_eq_ok hstep
    rcases q.skipRows_cases n.toInt.toNat with ⟨hr, -⟩ | hr <;> rw [hr] <;> exact ⟨rfl, rfl, rfl⟩
  | take n =>
    obtain ⟨-, rfl⟩ := take_eq_ok hstep
    rcases q.takeRows_cases n.toInt.toNat with ⟨hr, -⟩ | ⟨-, hr⟩ <;> rw [hr] <;>
      exact ⟨rfl, rfl, rfl⟩
  | orderBy key newGroup ascending =>
    obtain ⟨-, g, -, ⟨rfl, -⟩ | ⟨-, rfl⟩⟩ := orderBy_eq_ok hstep <;> exact ⟨rfl, rfl, rfl⟩
  | reverse =>
    rcases reverse_eq_ok hstep with ⟨rfl, -⟩ | ⟨-, s, -, rfl⟩ <;> exact ⟨rfl, rfl, rfl⟩
  | select f =>
    obtain ⟨-, ⟨-, rfl⟩ | ⟨g, projection, -, -, -, hr⟩⟩ := select_eq_ok hstep
    · exact ⟨rfl, rfl, rfl⟩
    · rw [hr]
      exact ⟨rfl, rfl, rfl⟩
  | distinct flag =>
    rcases distinct_eq_ok hstep with ⟨rfl, -⟩ | ⟨f, -, -, rfl⟩ <;> exact ⟨rfl, rfl, rfl⟩
  | withState state =>
    obtain rfl := Except.ok.inj hstep
    exact ⟨rfl, rfl, rfl⟩

/-! ### Chains of operations -/

theorem steps_cons_eq_ok {step : Step σ} {rest : List (Step σ)} :
    q.steps (step :: rest) = .ok q' ↔
      ∃ r, q.step step = .ok r ∧ (r.of q).steps rest = .ok q' := by
  rw [steps, Outcome.bind_eq_ok]

theorem steps_append_eq_ok {q' : Query β σ} : ∀ {q : Query β σ} {first second : List (Step σ)},
    q.steps (first ++ second) = .ok q' ↔
      ∃ mid, q.steps first = .ok mid ∧ mid.steps second = .ok q'
  | q, [], second => by simp [steps]
  | q, step :: first, second => by
    rw [List.cons_append, steps_cons_eq_ok]
    simp only [steps_append_eq_ok, steps_cons_eq_ok]
    constructor
    · rintro ⟨r, hr, mid, hmid, hq⟩
      exact ⟨mid, ⟨r, hr, hmid⟩, hq⟩
    · rintro ⟨mid, ⟨r, hr, hmid⟩, hq⟩
      exact ⟨r, hr, mid, hmid, hq⟩

/-- What every operation of a kind keeps, every chain of them keeps. -/
theorem steps_keep {P : Query β σ → Prop} {A : Step σ → Prop}
    (hkeep : ∀ {q : Query β σ} {s : Step σ} {r : Revision (Query β σ)}, P q → A s →
      q.step s = .ok r → P (r.of q)) : ∀ {ops : List (Step σ)} {q : Query β σ},
    P q → (∀ s ∈ ops, A s) → q.steps ops = .ok q' → P q'
  | [], q, h, _, hsteps => by
    obtain rfl := Except.ok.inj hsteps
    exact h
  | s :: rest, q, h, hops, hsteps => by
    rw [List.forall_mem_cons] at hops
    obtain ⟨r, hr, hsteps⟩ := steps_cons_eq_ok.mp hsteps
    exact steps_keep hkeep (hkeep h hops.1 hr) hops.2 hsteps

/-- A query stays over its backend and its origin, and has the state that it was given last. -/
theorem steps_frame : ∀ {ops : List (Step σ)} {q : Query β σ}, q.steps ops = .ok q' →
    q'.backend = q.backend ∧ q'.originTy = q.originTy ∧
      q'.state = (ops.filterMap Step.state?).getLast?.or q.state
  | [], q, hsteps => by
    obtain rfl := Except.ok.inj hsteps
    exact ⟨rfl, rfl, rfl⟩
  | s :: rest, q, hsteps => by
    obtain ⟨r, hr, hsteps⟩ := steps_cons_eq_ok.mp hsteps
    obtain ⟨hbackend, horigin, hstate⟩ := step_frame hr
    obtain ⟨hbackend', horigin', hstate'⟩ := steps_frame hsteps
    refine ⟨hbackend'.trans hbackend, horigin'.trans horigin, ?_⟩
    rw [hstate', hstate]
    cases hs : s.state? with
    | none => rw [List.filterMap_cons_none hs, Option.none_or]
    | some state =>
      rw [List.filterMap_cons_some hs, List.getLast?_cons, Option.some_or]
      cases (rest.filterMap Step.state?).getLast? <;> rfl

end Query
end SeqQuery
