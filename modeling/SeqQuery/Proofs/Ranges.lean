/-
# Row limits are final

Once rows are skipped or limited, a query keeps its filter and its order and no longer begins
to drop repeats, and what later operations do to its row limits can only narrow them. The
guards of the operations that a limited query refuses are one half of this
(`Query.step_narrows`). The other half is the arithmetic of skipping, which stops at
`maxRows` and therefore needs that no query has skipped more (`Query.steps_skip_le`).

Key definitions: `Query.keeps`, `Query.Narrows`.
Key theorems: `Query.Narrows.trans`, `Query.step_narrows`, `Query.steps_skip_le`,
`Query.steps_range_final`.
-/
import SeqQuery.Proofs.Steps

namespace SeqQuery

variable {β σ : Type} {q q' q'' : Query β σ} {r : Revision (Query β σ)}

theorem Source.hasRange_iff {s : Source β σ} : s.hasRange ↔ 0 < s.skip ∨ s.take.isSome := by
  rw [hasRange, Bool.or_eq_true, decide_eq_true_iff]

namespace Query

/-- Whether the row at a position is within the row limits. -/
def keeps (q : Query β σ) (i : Nat) : Prop :=
  q.source.skip ≤ i ∧ ∀ n, q.source.take = some n → i < q.source.skip + n

/-- A limited query that filters and sorts as another does, drops repeats only if that does,
and whose row limits lie within those of the other. -/
structure Narrows (q' q : Query β σ) : Prop where
  predicate : q'.source.predicate = q.source.predicate
  sorting : q'.source.sorting = q.source.sorting
  distinct : q'.isDistinct → q.isDistinct
  limited : q'.hasRange
  skip : q.source.skip ≤ q'.source.skip
  take : ∀ n, q.source.take = some n →
    ∃ n', q'.source.take = some n' ∧ (n' = 0 ∨ q'.source.skip + n' ≤ q.source.skip + n)

namespace Narrows

/-- A query narrows itself, whatever state the backend keeps in it and whatever it shows. -/
theorem of_limits (h : q.hasRange) (hpredicate : q'.source.predicate = q.source.predicate)
    (hsorting : q'.source.sorting = q.source.sorting) (hdistinct : q'.isDistinct → q.isDistinct)
    (hskip : q'.source.skip = q.source.skip) (htake : q'.source.take = q.source.take) :
    q'.Narrows q := by
  refine ⟨hpredicate, hsorting, hdistinct, ?_, Nat.le_of_eq hskip.symm, fun n hn => ?_⟩
  · rw [hasRange, Source.hasRange, hskip, htake]
    exact h
  · exact ⟨n, htake.trans hn, .inr (Nat.le_of_eq (congrArg (· + n) hskip))⟩

theorem refl (h : q.hasRange) : q.Narrows q :=
  of_limits h rfl rfl id rfl rfl

theorem trans (h : q''.Narrows q') (h' : q'.Narrows q) : q''.Narrows q := by
  refine ⟨h.predicate.trans h'.predicate, h.sorting.trans h'.sorting,
    fun hd => h'.distinct (h.distinct hd), h.limited, Nat.le_trans h'.skip h.skip,
    fun n hn => ?_⟩
  obtain ⟨n', hn', hle'⟩ := h'.take n hn
  obtain ⟨n'', hn'', hle⟩ := h.take n' hn'
  refine ⟨n'', hn'', ?_⟩
  -- a window within an empty one is empty, because it begins no earlier
  have hskip := h.skip
  omega

/-- No row is within the narrower limits alone. -/
theorem keeps (h : q'.Narrows q) {i : Nat} (hi : q'.keeps i) : q.keeps i := by
  refine ⟨Nat.le_trans h.skip hi.1, fun n hn => ?_⟩
  obtain ⟨n', hn', hle⟩ := h.take n hn
  have hlow := hi.1
  have hlt := hi.2 n' hn'
  omega

end Narrows

/-! ### One operation -/

theorem skipRows_narrows (h : q.hasRange) (hskip : q.source.skip ≤ maxRows) (n : Nat) :
    ((q.skipRows n).of q).Narrows q := by
  rcases q.skipRows_cases n with ⟨hr, -⟩ | hr <;> rw [hr]
  · exact .refl h
  · have hmore : q.source.skip ≤ min (q.source.skip + n) maxRows :=
      Nat.le_min.mpr ⟨Nat.le_add_right _ _, hskip⟩
    refine ⟨rfl, rfl, id, ?_, hmore, fun k hk => ⟨k - n, ?_, ?_⟩⟩
    · rcases Source.hasRange_iff.mp h with hpos | hsome
      · exact Source.hasRange_iff.mpr (.inl (Nat.lt_of_lt_of_le hpos hmore))
      · exact Source.hasRange_iff.mpr (.inr (Option.isSome_map.trans hsome))
    · show q.source.take.map (· - n) = some (k - n)
      rw [hk]
      rfl
    · show k - n = 0 ∨ min (q.source.skip + n) maxRows + (k - n) ≤ q.source.skip + k
      omega

theorem takeRows_narrows (h : q.hasRange) (n : Nat) : ((q.takeRows n).of q).Narrows q := by
  rcases q.takeRows_cases n with ⟨hr, -⟩ | ⟨hmore, hr⟩ <;> rw [hr]
  · exact .refl h
  · refine ⟨rfl, rfl, id, Source.hasRange_iff.mpr (.inr rfl), Nat.le_refl _, fun k hk => ?_⟩
    have hlt := hmore k hk
    refine ⟨n, rfl, .inr ?_⟩
    show q.source.skip + n ≤ q.source.skip + k
    omega

/-- An operation that a limited query accepts leaves its filter and its order, and at most
narrows its limits. -/
theorem step_narrows (h : q.hasRange) (hskip : q.source.skip ≤ maxRows) {s : Step σ}
    (hstep : q.step s = .ok r) : (r.of q).Narrows q := by
  have hlimited : q.hasRange ≠ false := by
    rw [h]
    decide
  cases s with
  | filter p =>
    obtain ⟨-, -, g, -, ⟨rfl, -⟩ | ⟨hrange, -⟩⟩ := filter_eq_ok hstep
    · exact .refl h
    · exact absurd hrange hlimited
  | skip n =>
    obtain ⟨-, rfl⟩ := skip_eq_ok hstep
    exact skipRows_narrows h hskip _
  | take n =>
    obtain ⟨-, rfl⟩ := take_eq_ok hstep
    exact takeRows_narrows h _
  | orderBy key newGroup ascending =>
    obtain ⟨-, g, -, ⟨rfl, -⟩ | ⟨hrange, -⟩⟩ := orderBy_eq_ok hstep
    · exact .refl h
    · exact absurd hrange hlimited
  | reverse =>
    rcases reverse_eq_ok hstep with ⟨rfl, -⟩ | ⟨hrange, -⟩
    · exact .refl h
    · exact absurd hrange hlimited
  | select f =>
    obtain ⟨-, ⟨-, rfl⟩ | ⟨g, projection, -, -, hproject, hr⟩⟩ := select_eq_ok hstep
    · exact .refl h
    · rw [hr]
      refine .of_limits h rfl rfl (fun hd => ?_) rfl rfl
      rcases Source.project_eq_ok hproject with ⟨-, rfl⟩ | ⟨-, -, rfl⟩ | ⟨-, rfl⟩ <;> cases hd
  | distinct flag =>
    rcases distinct_eq_ok hstep with ⟨rfl, -⟩ | ⟨f, hp, hflag, rfl⟩
    · exact .refl h
    · -- a limited query can only stop dropping repeats
      have hfalse : flag = false := Bool.eq_false_iff.mpr fun ht => hlimited (hflag ht)
      refine .of_limits h rfl rfl (fun hd => ?_) rfl rfl
      rw [hfalse] at hd
      cases hd
  | withState state =>
    obtain rfl := Except.ok.inj hstep
    exact .of_limits h rfl rfl id rfl rfl

/-! ### Chains of operations -/

theorem step_skip_le (h : q.source.skip ≤ maxRows) {s : Step σ} (hstep : q.step s = .ok r) :
    (r.of q).source.skip ≤ maxRows := by
  cases s with
  | filter p =>
    obtain ⟨-, -, g, -, ⟨rfl, -⟩ | ⟨-, joined, rfl, -⟩⟩ := filter_eq_ok hstep <;> exact h
  | skip n =>
    obtain ⟨-, rfl⟩ := skip_eq_ok hstep
    rcases q.skipRows_cases n.toInt.toNat with ⟨hr, -⟩ | hr <;> rw [hr]
    · exact h
    · exact Nat.min_le_right _ _
  | take n =>
    obtain ⟨-, rfl⟩ := take_eq_ok hstep
    rcases q.takeRows_cases n.toInt.toNat with ⟨hr, -⟩ | ⟨-, hr⟩ <;> rw [hr] <;> exact h
  | orderBy key newGroup ascending =>
    obtain ⟨-, g, -, ⟨rfl, -⟩ | ⟨-, rfl⟩⟩ := orderBy_eq_ok hstep <;> exact h
  | reverse => rcases reverse_eq_ok hstep with ⟨rfl, -⟩ | ⟨-, s, -, rfl⟩ <;> exact h
  | select f =>
    obtain ⟨-, ⟨-, rfl⟩ | ⟨g, projection, -, -, -, hr⟩⟩ := select_eq_ok hstep
    · exact h
    · rw [hr]
      exact h
  | distinct flag => rcases distinct_eq_ok hstep with ⟨rfl, -⟩ | ⟨f, -, -, rfl⟩ <;> exact h
  | withState state =>
    obtain rfl := Except.ok.inj hstep
    exact h

/-- No query that is composed skips more rows than can be skipped. -/
theorem steps_skip_le {ops : List (Step σ)} (h : q.source.skip ≤ maxRows)
    (hsteps : q.steps ops = .ok q') : q'.source.skip ≤ maxRows :=
  steps_keep (A := fun _ => True) (fun h _ hstep => step_skip_le h hstep) h (fun _ _ => trivial)
    hsteps

/-- Whatever is done to a limited query, it keeps its filter and its order, does not begin to
drop repeats, and stays within its row limits. -/
theorem steps_range_final (b : β) (origin : Ty) (before : List (Step σ)) (q : Query β σ)
    (hq : (ofBackend b origin).steps before = .ok q) (hrange : q.hasRange)
    (ops : List (Step σ)) (q' : Query β σ) (hsteps : q.steps ops = .ok q') :
    q'.Narrows q ∧ q'.clauses = q.clauses ∧ q'.isReversed = q.isReversed ∧
      ∀ i, q'.keeps i → q.keeps i := by
  have hskip : q.source.skip ≤ maxRows := steps_skip_le (Nat.zero_le _) hq
  have hnarrows : q'.Narrows q ∧ q'.source.skip ≤ maxRows := by
    refine steps_keep (P := fun mid => mid.Narrows q ∧ mid.source.skip ≤ maxRows)
      (A := fun _ => True) ?_ ⟨.refl hrange, hskip⟩ (fun _ _ => trivial) hsteps
    intro mid s r h _ hstep
    exact ⟨(step_narrows h.1.limited h.2 hstep).trans h.1, step_skip_le h.2 hstep⟩
  refine ⟨hnarrows.1, ?_, ?_, fun i => hnarrows.1.keeps⟩
  · rw [clauses, clauses, hnarrows.1.sorting]
  · rw [isReversed, isReversed, hnarrows.1.sorting]

/-- Sorted numbers without repeats of which the third to the seventh are kept, before they are
counted from the fifth on and repeats are no longer dropped. -/
theorem steps_range_final_sorted :
    let x : Param := ⟨0, "x", .int32⟩
    let negated : Lambda := ⟨x, .unary .negate (.param x) .int32⟩
    let always : Lambda := ⟨x, .const (.bool true) .bool⟩
    let before : List (Step Unit) := [.orderBy (.identity x) true true, .reverse,
      .select negated, .distinct true, .skip 2, .take 5]
    let ops : List (Step Unit) := [.skip 2, .filter always, .distinct false, .take 9]
    ∃ q q' : Query Unit Unit, (ofBackend () .int32).steps before = .ok q ∧ q.hasRange ∧
      q.steps ops = .ok q' ∧ q'.Narrows q ∧ q'.clauses = q.clauses ∧
      q'.isReversed = q.isReversed ∧ (∀ i, q'.keeps i → q.keeps i) ∧
      q.isReversed ∧ q.isDistinct ∧ q'.source.skip = 4 ∧ q'.source.take = some 3 := by
  intro x negated always before ops
  refine ⟨_, _, rfl, rfl, rfl, ?_⟩
  obtain ⟨hnarrows, hclauses, hreversed, hkeeps⟩ :=
    steps_range_final () .int32 before _ rfl rfl ops _ rfl
  exact ⟨hnarrows, hclauses, hreversed, hkeeps, rfl, rfl, rfl, rfl⟩

end Query
end SeqQuery
