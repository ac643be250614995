/-
# The rows that a query has

A query over rows in memory filters them, sorts what is kept, and shows each row through
its projection, perhaps without repeats. `Yields` says which rows these are; the query
gives those of them that its row limits leave. Every list that a run gives comes about in
this way (`Yields.of_run`), so what is to be said of a query can be said of the rows that
it yields.

Key definitions: `Query.shown`, `Query.listed`, `Yields`.
Key theorems: `Memory.run_eq_ok`, `Yields.mem_rows`, `Yields.deep`, `Yields.run_eq`,
`Yields.of_run`.
-/
import SeqQuery.Proofs.SoundQueries

namespace SeqQuery

variable {σ : Type} {known : Param → Prop} {m : Memory} {q : Query Memory σ}

/-! ### Rows of a run -/

namespace Query

/-- The rows that a query makes of sorted rows of its origin. -/
def shown (now : Int64) (q : Query Memory σ) (sorted : List Value) : List Value :=
  let projected := sorted.map (q.view now)
  if q.isDistinct then projected.eraseDups else projected

/-- The rows that a run makes of sorted rows. -/
def listed (now : Int64) (q : Query Memory σ) (sorted : List Value) : List Value :=
  let projected := sorted.map (q.view now)
  if q.isDistinct then dropRepeats projected else projected

end Query

namespace Memory

theorem window_of_hasRange (h : q.hasRange = false) (rows : List Value) :
    window q.source.skip q.source.take rows = rows := by
  obtain ⟨hskip, htake⟩ := Source.hasRange_eq_false.mp h
  rw [hskip, htake, window, List.drop_zero]

theorem filterRows_subset {now : Int64} {p : Option Lambda} {rows kept : List Value}
    (h : filterRows now p rows = .ok kept) : ∀ v ∈ kept, v ∈ rows := by
  intro v hv
  cases p with
  | none =>
    obtain rfl := Except.ok.inj h
    exact hv
  | some p =>
    obtain ⟨-, rfl⟩ := filterRows_eq_ok.mp h
    exact (List.mem_filter.mp hv).1

theorem projectRows_projector {now : Int64} {rows projected : List Value} :
    projectRows now q.projector rows = .ok projected ↔
      (∀ v ∈ rows, q.HasViewAt now v) ∧ rows.map (q.view now) = projected := by
  unfold Query.HasViewAt Query.view
  cases q.projector with
  | none => simp [projectRows]
  | some f =>
    rw [projectRows_eq_ok]
    simp

/-- A run gives rows exactly when the filter can be asked at every row and every row that
is kept has its keys and can be shown. -/
theorem run_eq_ok {rows : List Value} : m.run q = .ok rows ↔
    ∃ kept, filterRows m.now q.source.predicate m.rows = .ok kept ∧
      (∀ v ∈ kept, (∀ c ∈ q.clauses, c.key.HasValueAt m.now v) ∧ q.HasViewAt m.now v) ∧
      window q.source.skip q.source.take
        (q.listed m.now (kept.mergeSort fun a b => rowOrder m.now q.clauses a b != .gt)) = rows := by
  rw [run, Outcome.bind_eq_ok]
  refine exists_congr fun kept => and_congr_right fun _ => ?_
  simp only [Outcome.bind_eq_ok, sortRows_eq_ok, projectRows_projector, Except.ok.injEq]
  constructor
  · rintro ⟨_, ⟨hkeys, rfl⟩, _, ⟨hviews, rfl⟩, hrows⟩
    exact ⟨fun v hv => ⟨hkeys v hv, hviews v (List.mem_mergeSort.mpr hv)⟩, hrows⟩
  · rintro ⟨hvalues, hrows⟩
    exact ⟨_, ⟨fun v hv => (hvalues v hv).1, rfl⟩, _,
      ⟨fun v hv => (hvalues v (List.mem_mergeSort.mp hv)).2, rfl⟩, hrows⟩

end Memory

namespace Query.PlainView

variable {sorted : List Value}

theorem equalOn (h : q.PlainView known m) (hm : m.origin.isFloatFree) :
    EqualOn fun v : Value => q.elementTy.admitsDeep v = true :=
  Value.equalOn_beq (h.elementTy_floatFree hm)

theorem projected_deep (h : q.PlainView known m)
    (hsorted : ∀ v ∈ sorted, m.origin.admitsDeep v ∧ q.HasViewAt m.now v) :
    ∀ v ∈ sorted.map (q.view m.now), q.elementTy.admitsDeep v := by
  rw [List.forall_mem_map]
  exact fun v hv => h.view_deep (hsorted v hv).1 (hsorted v hv).2

/-- What a run makes of sorted rows is what the query shows of them. -/
theorem listed_eq (h : q.PlainView known m) (hm : m.origin.isFloatFree)
    (hsorted : ∀ v ∈ sorted, m.origin.admitsDeep v ∧ q.HasViewAt m.now v) :
    q.listed m.now sorted = q.shown m.now sorted := by
  rw [listed, shown, dropRepeats_eq_eraseDups (h.equalOn hm) (h.projected_deep hsorted)]

theorem mem_shown (h : q.PlainView known m) (hm : m.origin.isFloatFree)
    (hsorted : ∀ v ∈ sorted, m.origin.admitsDeep v ∧ q.HasViewAt m.now v) {v : Value} :
    v ∈ q.shown m.now sorted ↔ ∃ u ∈ sorted, q.view m.now u = v := by
  rw [← List.mem_map, shown]
  cases q.isDistinct with
  | false => rfl
  | true => exact mem_eraseDups (h.equalOn hm) (h.projected_deep hsorted)

end Query.PlainView

/-! ### The rows that a query yields -/

/-- The rows of a query over rows in memory, before its row limits: those that its filter
keeps, sorted, and as the query shows them. -/
structure Yields (known : Param → Prop) (m : Memory) (q : Query Memory σ)
    (kept sorted rows : List Value) : Prop where
  sound : q.SoundFor known m
  filters : Memory.filterRows m.now q.source.predicate m.rows = .ok kept
  sorts : Sorts (rowOrder m.now q.clauses) kept sorted
  sortable : ∀ v ∈ kept, IsSortable m.now m.origin q.clauses v
  viewable : ∀ v ∈ kept, q.HasViewAt m.now v
  gives : q.shown m.now sorted = rows

namespace Yields

variable {kept sorted rows : List Value}

theorem ordersOn (h : Yields known m q kept sorted rows) (hm : m.origin.isFloatFree) :
    OrdersOn (· ∈ kept) (rowOrder m.now q.clauses) :=
  (ordersOn_rowOrder hm h.sound.keys).imp h.sortable

theorem equalOn (h : Yields known m q kept sorted rows) (hm : m.origin.isFloatFree) :
    EqualOn fun v : Value => q.elementTy.admitsDeep v = true :=
  h.sound.equalOn hm

theorem sorted_deep (h : Yields known m q kept sorted rows) :
    ∀ v ∈ sorted, m.origin.admitsDeep v ∧ q.HasViewAt m.now v := fun v hv =>
  have hmem := h.sorts.mem_iff.mp hv
  ⟨(h.sortable v hmem).1, h.viewable v hmem⟩

theorem projected_deep (h : Yields known m q kept sorted rows) :
    ∀ v ∈ sorted.map (q.view m.now), q.elementTy.admitsDeep v :=
  h.sound.projected_deep h.sorted_deep

/-- The rows are what the query shows of the rows that are kept. -/
theorem mem_rows (h : Yields known m q kept sorted rows) (hm : m.origin.isFloatFree)
    {v : Value} : v ∈ rows ↔ ∃ u ∈ kept, q.view m.now u = v := by
  rw [← h.gives, h.sound.mem_shown hm h.sorted_deep]
  simp only [h.sorts.mem_iff]

theorem deep (h : Yields known m q kept sorted rows) (hm : m.origin.isFloatFree) :
    ∀ v ∈ rows, q.elementTy.admitsDeep v := by
  intro v hv
  obtain ⟨u, hu, rfl⟩ := (h.mem_rows hm).mp hv
  exact h.sound.view_deep (h.sortable u hu).1 (h.viewable u hu)

theorem listed_eq (h : Yields known m q kept sorted rows) (hm : m.origin.isFloatFree) :
    q.listed m.now sorted = rows :=
  (h.sound.listed_eq hm h.sorted_deep).trans h.gives

theorem mergeSort_eq (h : Yields known m q kept sorted rows) (hm : m.origin.isFloatFree) :
    (kept.mergeSort fun a b => rowOrder m.now q.clauses a b != .gt) = sorted :=
  Sorts.unique (h.ordersOn hm) (Sorts.mergeSort (h.ordersOn hm)) h.sorts

/-- A query over all rows yields them as they are. -/
theorem init (hm : m.IsPlain) :
    Yields known m (m.query : Query Memory σ) m.rows m.rows m.rows where
  sound := Query.IsComposed.init.toSoundFor
  filters := rfl
  sorts := by
    refine ⟨.refl _, ?_, fun _ _ => rfl⟩
    exact List.pairwise_of_forall fun _ _ => nofun
  sortable := fun v hv => ⟨hm.deep v hv, nofun⟩
  viewable := fun _ _ => nofun
  gives := List.map_id _

/-- A query in another order yields what it shows of the rows that it keeps. -/
theorem sortedBy (h : Yields known m q kept sorted rows) (hm : m.origin.isFloatFree) {s : Sorting}
    (hkeys : ∀ c ∈ s.clauses, c.key.PlainOn known m.origin ∧
      ∀ v ∈ kept, c.key.HasValueAt m.now v) :
    ∃ sorted', Yields known m (q.sortedBy s) kept sorted' (q.shown m.now sorted') := by
  have hsound : (q.sortedBy s).SoundFor known m := h.sound.sortedBy fun c hc => (hkeys c hc).1
  have hsortable : ∀ v ∈ kept, IsSortable m.now m.origin (q.sortedBy s).clauses v := fun v hv =>
    ⟨(h.sortable v hv).1, fun c hc => (hkeys c hc).2 v hv⟩
  exact ⟨_, hsound, h.filters,
    Sorts.mergeSort ((ordersOn_rowOrder hm hsound.keys).imp hsortable), hsortable, h.viewable, rfl⟩

/-- A run gives the rows that a query yields, within its row limits. -/
theorem run_eq (h : Yields known m q kept sorted rows) (hm : m.origin.isFloatFree) :
    q.backend.run q = .ok (Memory.window q.source.skip q.source.take rows) := by
  have hbackend : q.backend = m := h.sound.backend
  rw [hbackend, Memory.run_eq_ok]
  refine ⟨kept, h.filters, fun v hv => ⟨(h.sortable v hv).2, h.viewable v hv⟩, ?_⟩
  rw [h.mergeSort_eq hm, h.listed_eq hm]

/-- Every list that a run gives is what the query yields, within its row limits. -/
theorem of_run (hm : m.IsPlain) (hq : q.SoundFor known m) {given : List Value}
    (h : q.backend.run q = .ok given) : ∃ kept sorted rows, Yields known m q kept sorted rows ∧
      Memory.window q.source.skip q.source.take rows = given := by
  have hbackend : q.backend = m := hq.backend
  rw [hbackend, Memory.run_eq_ok] at h
  obtain ⟨kept, hfilters, hvalues, hgiven⟩ := h
  have hsortable : ∀ v ∈ kept, IsSortable m.now m.origin q.clauses v := fun v hv =>
    ⟨hm.deep v (Memory.filterRows_subset hfilters v hv), (hvalues v hv).1⟩
  have hyields : Yields known m q kept _ _ :=
    ⟨hq, hfilters, Sorts.mergeSort ((ordersOn_rowOrder hm.floatFree hq.keys).imp hsortable),
      hsortable, fun v hv => (hvalues v hv).2, rfl⟩
  refine ⟨kept, _, _, hyields, ?_⟩
  rw [← hyields.listed_eq hm.floatFree]
  exact hgiven

end Yields
end SeqQuery
