/-
# Operations on the rows that a backend has

A query runs in one order, whatever the order in which it was composed: it filters, sorts,
projects and drops repeats. So an operation on a projected query is composed with the
projection and done before it. Every operation takes the rows that a query yields to the
rows that the operation gives on lists.

Key theorems: `Yields.filter`, `Yields.select`, `Yields.distinct`.
-/
import SeqQuery.Proofs.Listing

namespace SeqQuery

variable {σ : Type} {known : Param → Prop} {m : Memory} {q : Query Memory σ}

theorem Lambda.test_of_constantBool? {f : Lambda} {b : Bool}
    (h : f.body.constantBool? = some b) (now : Int64) (v : Value) : f.test now v = .ok b := by
  obtain ⟨ty, hbody⟩ := Expr.constantBool?_eq_some.mp h
  rw [test_eq_ok, apply, hbody, Expr.eval]

namespace Yields

/-! ### Filters -/

section Filter

variable {kept sorted rows rows' : List Value} {p g joined : Lambda}
  {r : Revision (Query Memory σ)}

/-- What a predicate says of a row that a query shows, it says on the origin as well. -/
theorem test_fold (h : Yields known m q kept sorted rows) (hq : q.IsComposed known m)
    (hp : p.ExactOn known q.elementTy) (hg : q.onOrigin p = .ok g) :
    g.fold.ExactOn known m.origin ∧ ∀ u ∈ kept, ∀ b, p.test m.now (q.view m.now u) = .ok b →
      g.fold.test m.now u = .ok b := by
  obtain ⟨hgexact, hgvalue⟩ := hq.onOrigin_exact hp hg
  obtain ⟨hfexact, hfvalue⟩ := hgexact.fold Vocabulary.sound_noFloatSum
  refine ⟨hfexact, fun u hu b hb => ?_⟩
  rw [Lambda.test_eq_ok] at hb ⊢
  exact hfvalue _ _ _ (hgvalue _ _ _ (h.viewable u hu) hb)

/-- A predicate that is dropped because it always passes does pass every row. -/
theorem test_of_const (h : Yields known m q kept sorted rows) (hq : q.IsComposed known m)
    (hm : m.origin.isFloatFree) (hp : p.ExactOn known q.elementTy) (hg : q.onOrigin p = .ok g)
    (hconst : g.fold.body.constantBool? = some true) {v : Value} (hv : v ∈ rows) {b : Bool}
    (hb : p.test m.now v = .ok b) : b = true := by
  obtain ⟨u, hu, rfl⟩ := (h.mem_rows hm).mp hv
  have hfold := (h.test_fold hq hp hg).2 u hu b hb
  rw [Lambda.test_of_constantBool? hconst] at hfold
  exact (Except.ok.inj hfold).symm

/-- A predicate alone, or joined to the filter so far, keeps of the kept rows those that pass. -/
theorem filterRows_joined (h : Yields known m q kept sorted rows) (hq : q.IsComposed known m)
    (hg : g.ExactOn known m.origin) (htest : ∀ v ∈ kept, ∃ b, g.test m.now v = .ok b)
    (hjoined : (q.source.predicate = none ∧ joined = g) ∨
      ∃ existing, q.source.predicate = some existing ∧ existing.conjoin g = .ok joined) :
    Memory.filterRows m.now (some joined) m.rows =
      .ok (kept.filter (Outcome.passes (g.test m.now))) := by
  have hfilters := h.filters
  rcases hjoined with ⟨hnone, rfl⟩ | ⟨existing, hsome, hconjoin⟩
  · rw [hnone] at hfilters
    obtain rfl : m.rows = kept := Except.ok.inj hfilters
    exact Memory.filterRows_eq_ok.mpr ⟨htest, rfl⟩
  · rw [hsome] at hfilters
    obtain ⟨hall, hkept⟩ := Memory.filterRows_eq_ok.mp hfilters
    obtain ⟨-, -, hlaw⟩ := (hq.predicate existing hsome).within.conjoin
      Vocabulary.sound_noFloatSum ((hq.predicateFits existing hsome).knowing _) hg.within
      (hg.paramTy.trans (hq.predicate existing hsome).paramTy.symm) hconjoin
    have hboth : ∀ v ∈ m.rows, joined.test m.now v =
        .ok (Outcome.passes (existing.test m.now) v && Outcome.passes (g.test m.now) v) := by
      intro v hv
      obtain ⟨a, ha⟩ := hall v hv
      rw [Outcome.passes_of_ok ha]
      cases a with
      | false => exact hlaw m.now v false false ha nofun
      | true =>
        have hmem : v ∈ kept := by
          rw [← hkept, List.mem_filter]
          exact ⟨hv, Outcome.passes_of_ok ha⟩
        obtain ⟨b, hb⟩ := htest v hmem
        rw [Outcome.passes_of_ok hb]
        exact hlaw m.now v true b ha fun _ => hb
    refine Memory.filterRows_eq_ok.mpr ⟨fun v hv => ⟨_, hboth v hv⟩, ?_⟩
    rw [← hkept, List.filter_filter]
    refine List.filter_congr fun v hv => ?_
    rw [Outcome.passes_of_ok (hboth v hv), Bool.and_comm]

/-- What a query shows of the sorted rows that pass a test on their view are its rows that
pass. -/
theorem shown_filter (h : Yields known m q kept sorted rows) (hm : m.origin.isFloatFree)
    {keep test : Value → Bool} (hkeep : ∀ u ∈ sorted, keep u = test (q.view m.now u)) :
    q.shown m.now (sorted.filter keep) = rows.filter test := by
  have hmap : (sorted.filter keep).map (q.view m.now) =
      (sorted.map (q.view m.now)).filter test := by
    rw [List.filter_map]
    exact congrArg _ (List.filter_congr hkeep)
  rw [← h.gives]
  unfold Query.shown
  rw [hmap]
  cases q.isDistinct with
  | false => rfl
  | true => exact eraseDups_filter (h.equalOn hm) _ h.projected_deep

/-- A filter keeps the rows that pass it. -/
theorem filter (h : Yields known m q kept sorted rows) (hq : q.IsComposed known m)
    (hm : m.origin.isFloatFree) (hempty : q.isEmpty = false) (hp : p.ExactOn known q.elementTy)
    (hstep : q.filter p = .ok r) (hrows : rows.filterM (p.test m.now) = .ok rows') :
    ∃ kept' sorted', Yields known m (r.of q) kept' sorted' rows' := by
  obtain ⟨-, -, g, hg, hrevision⟩ := Query.filter_eq_ok hstep
  obtain ⟨htests, hrows'⟩ := Outcome.filterM_eq_ok.mp hrows
  obtain ⟨hfexact, hfvalue⟩ := h.test_fold hq hp hg
  -- the predicate on the origin says of a kept row what the filter says of the row it shows
  have htest : ∀ u ∈ kept, ∃ b, p.test m.now (q.view m.now u) = .ok b ∧
      g.fold.test m.now u = .ok b := by
    intro u hu
    obtain ⟨b, hb⟩ := htests (q.view m.now u) ((h.mem_rows hm).mpr ⟨u, hu, rfl⟩)
    exact ⟨b, hb, hfvalue u hu b hb⟩
  rcases hrevision with ⟨rfl, hempty' | hconst⟩ | ⟨-, joined, rfl, hjoined⟩
  · rw [hempty] at hempty'
    cases hempty'
  · have hself : rows' = rows := by
      rw [← hrows', List.filter_eq_self]
      intro v hv
      obtain ⟨b, hb⟩ := htests v hv
      rw [Outcome.passes_of_ok hb, h.test_of_const hq hm hp hg hconst hv hb]
    rw [hself]
    exact ⟨kept, sorted, h⟩
  · have htest' : ∀ u ∈ kept, ∃ b, g.fold.test m.now u = .ok b := fun u hu =>
      let ⟨b, _, hb⟩ := htest u hu
      ⟨b, hb⟩
    have hsub : ∀ u ∈ kept.filter (Outcome.passes (g.fold.test m.now)), u ∈ kept := fun u hu =>
      (List.mem_filter.mp hu).1
    have hpasses : ∀ u ∈ sorted, Outcome.passes (g.fold.test m.now) u =
        Outcome.passes (p.test m.now) (q.view m.now u) := by
      intro u hu
      obtain ⟨b, hb, hb'⟩ := htest u (h.sorts.mem_iff.mp hu)
      rw [Outcome.passes_of_ok hb, Outcome.passes_of_ok hb']
    refine ⟨_, sorted.filter (Outcome.passes (g.fold.test m.now)),
      h.sound.withPredicate (hq.joined_exact hfexact hjoined),
      h.filterRows_joined hq hfexact htest' hjoined, h.sorts.filter _,
      fun u hu => h.sortable u (hsub u hu), fun u hu => h.viewable u (hsub u hu), ?_⟩
    rw [← hrows']
    exact h.shown_filter hm hpasses

end Filter

/-! ### Projections -/

section Select

variable {kept sorted rows rows' : List Value} {f g : Lambda} {r : Revision (Query Memory σ)}

/-- A query with another projection shows the values of the projection. -/
theorem project (h : Yields known m q kept sorted rows) (hempty : q.isEmpty = false)
    (hg : g.PlainOn known m.origin) (hvalue : ∀ u ∈ kept, g.HasValueAt m.now u)
    {projection : Option Projection} (hproject : q.source.project g = .ok projection) :
    Yields known m ⟨q.source, projection⟩ kept sorted (sorted.map (g.valueAt m.now)) := by
  obtain ⟨hfplain, hfvalue⟩ := hg.fold Vocabulary.sound_plain
  have hempty' : q.source.isEmpty ≠ true := Bool.eq_false_iff.mp hempty
  rcases Source.project_eq_ok hproject with ⟨hid, rfl⟩ | ⟨hno, -⟩ | ⟨-, rfl⟩
  · refine ⟨h.sound.withProjection nofun, h.filters, h.sorts, h.sortable, fun _ _ => nofun, ?_⟩
    refine List.map_congr_left fun u _ => ?_
    rw [Lambda.valueAt_of_ok (Lambda.apply_of_isIdentity hid m.now u)]
    rfl
  · exact absurd hno hempty'
  · have hfolded : ∀ u ∈ kept, g.fold.apply m.now u = .ok (g.valueAt m.now u) := fun u hu =>
      hfvalue _ _ _ (hvalue u hu)
    refine ⟨h.sound.withProjection ?_, h.filters, h.sorts, h.sortable, ?_, ?_⟩
    · rintro _ ⟨⟩
      exact hfplain
    · rintro u hu _ ⟨⟩
      exact Lambda.hasValueAt_of_ok (hfolded u hu)
    · refine List.map_congr_left fun u hu => ?_
      exact Lambda.valueAt_of_ok (hfolded u (h.sorts.mem_iff.mp hu))

/-- A projection maps the rows. -/
theorem select (h : Yields known m q kept sorted rows) (hq : q.IsComposed known m)
    (hm : m.origin.isFloatFree) (hempty : q.isEmpty = false) (hf : f.PlainOn known q.elementTy)
    (hstep : q.select f = .ok r) (hrows : rows.mapM (f.apply m.now) = .ok rows') :
    ∃ kept' sorted', Yields known m (r.of q) kept' sorted' rows' := by
  obtain ⟨hvalues, rfl⟩ := (Outcome.mapM_eq_ok_map fun _ _ => Lambda.valueAt_of_ok).mp hrows
  obtain ⟨-, ⟨hid, rfl⟩ | ⟨g, projection, hdistinct, hg, hproject, hnext⟩⟩ :=
    Query.select_eq_ok hstep
  · have hself : rows.map (f.valueAt m.now) = rows := by
      refine (List.map_congr_left fun v _ => ?_).trans (List.map_id rows)
      exact Lambda.valueAt_of_ok (Lambda.apply_of_isIdentity hid m.now v)
    rw [hself]
    exact ⟨kept, sorted, h⟩
  · obtain ⟨hgplain, hgvalue⟩ := hq.onOrigin_plain hf hg
    have hvalue : ∀ u ∈ kept, g.apply m.now u = .ok (f.valueAt m.now (q.view m.now u)) := by
      intro u hu
      have hmem : q.view m.now u ∈ rows := (h.mem_rows hm).mpr ⟨u, hu, rfl⟩
      exact hgvalue _ _ _ (h.viewable u hu) (hvalues _ hmem)
    have hrows' : rows.map (f.valueAt m.now) = sorted.map (g.valueAt m.now) := by
      rw [← h.gives, Query.shown, hdistinct, if_neg Bool.false_ne_true, List.map_map]
      refine List.map_congr_left fun u hu => ?_
      exact (Lambda.valueAt_of_ok (hvalue u (h.sorts.mem_iff.mp hu))).symm
    rw [hnext, hrows']
    exact ⟨kept, sorted,
      h.project hempty hgplain (fun u hu => Lambda.hasValueAt_of_ok (hvalue u hu)) hproject⟩

end Select

/-! ### Dropping repeats -/

section Distinct

variable {kept sorted rows : List Value} {f : Lambda} {r : Revision (Query Memory σ)}

theorem eraseDups_rows (h : Yields known m q kept sorted rows) (hm : m.origin.isFloatFree)
    (hdistinct : q.isDistinct) : rows.eraseDups = rows := by
  have hnodup : rows.Nodup := by
    rw [← h.gives, Query.shown, if_pos hdistinct]
    exact nodup_eraseDups (h.equalOn hm) h.projected_deep
  exact eraseDups_of_nodup (h.equalOn hm) (h.deep hm) hnodup

/-- A query that is told to drop repeats shows the first of equal rows. -/
theorem dropRepeats (h : Yields known m q kept sorted rows)
    (hq : q.projection = some ⟨f, false⟩) :
    Yields known m ⟨q.source, some ⟨f, true⟩⟩ kept sorted rows.eraseDups := by
  have hprojector : q.projector = some f := by simp [Query.projector, hq]
  have hview : (⟨q.source, some ⟨f, true⟩⟩ : Query Memory σ).view m.now = q.view m.now := by
    funext v
    simp only [Query.view, hprojector]
    rfl
  refine ⟨h.sound.withProjection ?_, h.filters, h.sorts, h.sortable, ?_, ?_⟩
  · rintro _ ⟨⟩
    exact h.sound.projector f hprojector
  · rintro u hu _ ⟨⟩
    exact h.viewable u hu f hprojector
  · have hrows : sorted.map (q.view m.now) = rows := by
      rw [← h.gives]
      simp [Query.shown, Query.isDistinct, hq]
    rw [Query.shown, hview, hrows]
    rfl

/-- Dropping repeats keeps the first of equal rows. -/
theorem distinct (h : Yields known m q kept sorted rows) (hm : m.origin.isFloatFree)
    (hempty : q.isEmpty = false) (hstep : q.distinct true = .ok r) :
    Yields known m (r.of q) kept sorted rows.eraseDups := by
  rcases Query.distinct_eq_ok hstep with ⟨rfl, hempty' | hdistinct⟩ | ⟨f, hp, -, rfl⟩
  · rw [hempty] at hempty'
    cases hempty'
  · rw [h.eraseDups_rows hm hdistinct]
    exact h
  · exact h.dropRepeats hp

end Distinct

end Yields
end SeqQuery
