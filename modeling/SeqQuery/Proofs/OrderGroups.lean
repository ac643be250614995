/-
# Groups of sort keys

Sort keys are added one at a time: the first key of a group sorts before all keys so far,
and the others continue the group. When a whole group has been added, its clauses come in
the order in which they were added, in front of the clauses from before, so a query that
was sorted is sorted once more and stays stable.

Key definitions: `Query.IsForward`, `Query.Lifts`.
Key theorems: `Query.steps_group_eq_ok`, `Yields.order`.
-/
import SeqQuery.Proofs.Pushdown
import SeqQuery.Proofs.SortClauses

namespace SeqQuery

variable {σ : Type} {known : Param → Prop} {m : Memory} {q : Query Memory σ}

namespace Query

variable {q' : Query Memory σ} {r : Revision (Query Memory σ)} {c c' first : SortClause}
  {rest cs old : List SortClause}

/-- An order that is not turned over. -/
def IsForward (q : Query Memory σ) : Prop :=
  ∀ s, q.source.sorting = some s → s.reversed = false

/-- Whether a clause over the rows of the origin stands for one over the rows of a query. -/
def Lifts (q : Query Memory σ) (c c' : SortClause) : Prop :=
  c.key.paramTy = q.elementTy ∧ ∃ g, q.onOrigin c.key = .ok g ∧ c' = ⟨g.fold, c.ascending⟩

/-- A key that is added to a query without row limits becomes one over its origin. -/
theorem orderBy_lifts (hrange : q.hasRange = false) {newGroup : Bool}
    (hstep : q.orderBy c.key newGroup c.ascending = .ok r) :
    ∃ c', q.Lifts c c' ∧ r = .revised (q.sortedBy
      (match q.source.sorting with
        | none => .start c'.key c'.ascending
        | some s => s.push c'.key newGroup c'.ascending)) := by
  obtain ⟨hty, g, hg, ⟨-, hempty⟩ | ⟨-, hr⟩⟩ := orderBy_eq_ok hstep
  · rw [isEmpty_of_hasRange hrange] at hempty
    cases hempty
  · exact ⟨⟨g.fold, c.ascending⟩, ⟨hty, g, hg, rfl⟩, hr⟩

/-- Keys that continue a group are added to it in order. -/
theorem steps_continue_eq_ok (hrange : q.hasRange = false) :
    ∀ {rest group : List SortClause} {s : Sorting}, s.reversed = false → s.Splits group old →
      (q.sortedBy s).steps (rest.map fun c => .orderBy c.key false c.ascending) = .ok q' →
      ∃ cs s', List.Forall₂ q.Lifts rest cs ∧ s'.Splits (group ++ cs) old ∧
        s'.reversed = false ∧ q' = q.sortedBy s'
  | [], group, s, hs, hsplit, hsteps => by
    obtain rfl := Except.ok.inj hsteps
    refine ⟨[], s, .nil, ?_, hs, rfl⟩
    rw [List.append_nil]
    exact hsplit
  | c :: rest, group, s, hs, hsplit, hsteps => by
    obtain ⟨r, hr, hsteps⟩ := steps_cons_eq_ok.mp hsteps
    obtain ⟨c', hc', rfl⟩ := orderBy_lifts (q := q.sortedBy s) hrange hr
    obtain ⟨cs, s', hcs, hsplit', hs', rfl⟩ := steps_continue_eq_ok hrange
      (s := s.push c'.key false c'.ascending) hs (hsplit.push c') hsteps
    refine ⟨c' :: cs, s', .cons hc' hcs, ?_, hs', rfl⟩
    rw [List.append_cons]
    exact hsplit'

/-- A group of keys is put in front of the keys so far. -/
theorem steps_group_eq_ok (hrange : q.hasRange = false) (hforward : q.IsForward)
    (hsteps : q.steps (.orderBy first.key true first.ascending ::
        rest.map fun c => .orderBy c.key false c.ascending) = .ok q') :
    ∃ cs s, List.Forall₂ q.Lifts (first :: rest) cs ∧ s.clauses = cs ++ q.clauses ∧
      s.reversed = false ∧ q' = q.sortedBy s := by
  obtain ⟨r, hr, hsteps⟩ := steps_cons_eq_ok.mp hsteps
  obtain ⟨c', hc', rfl⟩ := orderBy_lifts hrange hr
  have hnext : ∀ s : Sorting, s.reversed = false → s.Splits [c'] q.clauses →
      (q.sortedBy s).steps (rest.map fun c => .orderBy c.key false c.ascending) = .ok q' →
      ∃ cs s, List.Forall₂ q.Lifts (first :: rest) cs ∧ s.clauses = cs ++ q.clauses ∧
        s.reversed = false ∧ q' = q.sortedBy s := by
    intro s hs hsplit hsteps
    obtain ⟨cs, s', hcs, hsplit', hs', rfl⟩ := steps_continue_eq_ok hrange hs hsplit hsteps
    exact ⟨c' :: cs, s', .cons hc' hcs, hsplit'.clauses_eq, hs', rfl⟩
  cases hsorting : q.source.sorting with
  | none =>
    rw [hsorting] at hsteps
    refine hnext (.start c'.key c'.ascending) rfl ?_ hsteps
    rw [clauses_of_none hsorting]
    exact Sorting.splits_start c'
  | some s =>
    have hs := hforward s hsorting
    rw [hsorting] at hsteps
    refine hnext (s.push c'.key true c'.ascending) hs ?_ hsteps
    rw [clauses_of_some hsorting]
    exact Sorting.splits_push_new s c'

end Query

/-! ### Sorting by a group -/

namespace Query

variable {now : Int64} {v w : Value} {c c' : SortClause} {clauses cs : List SortClause}

theorem Lifts.sound (h : q.IsComposed known m) (hc : c.key.PlainOn known q.elementTy)
    (hlift : q.Lifts c c') : c'.key.PlainOn known m.origin ∧ c'.ascending = c.ascending ∧
      ∀ now v, q.HasViewAt now v →
      c.key.HasValueAt now (q.view now v) →
      c'.key.apply now v = .ok (c.key.valueAt now (q.view now v)) := by
  obtain ⟨-, g, hg, rfl⟩ := hlift
  obtain ⟨hgplain, hgvalue⟩ := h.onOrigin_plain hc hg
  obtain ⟨hfplain, hfvalue⟩ := hgplain.fold Vocabulary.sound_plain
  exact ⟨hfplain, rfl, fun now v hview hkey => hfvalue _ _ _ (hgvalue _ _ _ hview hkey)⟩

theorem Lifts.order_eq (h : q.IsComposed known m) (hc : c.key.PlainOn known q.elementTy)
    (hlift : q.Lifts c c') (hv : q.HasViewAt now v) (hw : q.HasViewAt now w)
    (hkv : c.key.HasValueAt now (q.view now v))
    (hkw : c.key.HasValueAt now (q.view now w)) :
    c'.order now v w = c.order now (q.view now v) (q.view now w) := by
  obtain ⟨-, hasc, hvalue⟩ := hlift.sound h hc
  rw [SortClause.order, SortClause.order, hasc, Lambda.valueAt_of_ok (hvalue now v hv hkv),
    Lambda.valueAt_of_ok (hvalue now w hw hkw)]

/-- Clauses over the origin stand for clauses over the rows of a query: they are plain, they
have values where those have, and they order rows as those order what the query shows. -/
theorem lifts_sound (now : Int64) (h : q.IsComposed known m)
    (hlifts : List.Forall₂ q.Lifts clauses cs) :
    (∀ c ∈ clauses, c.key.PlainOn known q.elementTy) →
    (∀ c ∈ cs, c.key.PlainOn known m.origin) ∧
    (∀ v, q.HasViewAt now v → (∀ c ∈ clauses, c.key.HasValueAt now (q.view now v)) →
      ∀ c ∈ cs, c.key.HasValueAt now v) ∧
    ∀ v w, q.HasViewAt now v → q.HasViewAt now w →
      (∀ c ∈ clauses, c.key.HasValueAt now (q.view now v)) →
      (∀ c ∈ clauses, c.key.HasValueAt now (q.view now w)) →
      rowOrder now cs v w = rowOrder now clauses (q.view now v) (q.view now w) := by
  induction hlifts with
  | nil => exact fun _ => ⟨nofun, fun _ _ _ => nofun, fun _ _ _ _ _ _ => rfl⟩
  | @cons c c' clauses cs hlift _ ih =>
    intro hplain
    rw [List.forall_mem_cons] at hplain
    obtain ⟨hplains, hvalues, horders⟩ := ih hplain.2
    obtain ⟨hcplain, -, hvalue⟩ := hlift.sound h hplain.1
    refine ⟨List.forall_mem_cons.mpr ⟨hcplain, hplains⟩, ?_, ?_⟩
    · intro v hv hkeys
      rw [List.forall_mem_cons] at hkeys ⊢
      exact ⟨Lambda.hasValueAt_of_ok (hvalue now v hv hkeys.1), hvalues v hv hkeys.2⟩
    · intro v w hv hw hkv hkw
      rw [List.forall_mem_cons] at hkv hkw
      rw [rowOrder, rowOrder, hlift.order_eq h hplain.1 hv hw hkv.1 hkw.1,
        horders v w hv hw hkv.2 hkw.2]

end Query

namespace Yields

variable {kept sorted rows rows' : List Value} {s : Sorting} {clauses cs : List SortClause}

/-- What a query shows of a stable sort of its origin is a stable sort of its rows. -/
theorem sorts_shown (h : Yields known m q kept sorted rows) (hm : m.origin.isFloatFree)
    {cmp : Value → Value → Ordering} {sorted' : List Value}
    (hsorts : Sorts (fun a b => cmp (q.view m.now a) (q.view m.now b)) sorted sorted') :
    Sorts cmp rows (q.shown m.now sorted') := by
  have hmap := hsorts.map
  rw [← h.gives]
  unfold Query.shown
  cases q.isDistinct with
  | false => exact hmap
  | true => exact hmap.eraseDups (h.equalOn hm) h.projected_deep

/-- Clauses that are put in front of those of a query sort its rows once more: the query has the
rows of a stable sort by them, of which there is only one. -/
theorem order (h : Yields known m q kept sorted rows) (hq : q.IsComposed known m)
    (hm : m.origin.isFloatFree) (hplain : ∀ c ∈ clauses, c.key.PlainOn known q.elementTy)
    (hlifts : List.Forall₂ q.Lifts clauses cs) (hclauses : s.clauses = cs ++ q.clauses)
    (hkeys : ∀ v ∈ rows, ∀ c ∈ clauses, c.key.HasValueAt m.now v)
    (hsorts : Sorts (rowOrder m.now clauses) rows rows') :
    ∃ sorted', Yields known m (q.sortedBy s) kept sorted' rows' := by
  obtain ⟨hcsplain, hcsvalue, hcsorder⟩ := Query.lifts_sound m.now hq hlifts hplain
  have hview : ∀ u ∈ kept, ∀ c ∈ clauses, c.key.HasValueAt m.now (q.view m.now u) := fun u hu =>
    hkeys _ ((h.mem_rows hm).mpr ⟨u, hu, rfl⟩)
  have hsortable : ∀ u ∈ kept, IsSortable m.now m.origin cs u := fun u hu =>
    ⟨(h.sortable u hu).1, hcsvalue u (h.viewable u hu) (hview u hu)⟩
  have horders : OrdersOn (· ∈ kept) (rowOrder m.now cs) :=
    (ordersOn_rowOrder hm hcsplain).imp hsortable
  have hsorted := Sorts.mergeSort (horders.imp fun u hu => h.sorts.mem_iff.mp hu)
  refine ⟨sorted.mergeSort fun a b => rowOrder m.now cs a b != .gt, ?_, h.filters, ?_, ?_,
    h.viewable, ?_⟩
  · refine h.sound.sortedBy ?_
    rw [hclauses, List.forall_mem_append]
    exact ⟨hcsplain, h.sound.keys⟩
  · show Sorts (rowOrder m.now s.clauses) _ _
    rw [hclauses]
    refine (h.sorts.andThen hsorted fun u hu => horders.refl hu).congr fun a _ b _ => ?_
    exact (rowOrder_append q.clauses a b cs).symm
  · intro u hu
    refine ⟨(h.sortable u hu).1, ?_⟩
    show ∀ c ∈ s.clauses, _
    rw [hclauses, List.forall_mem_append]
    exact ⟨(hsortable u hu).2, (h.sortable u hu).2⟩
  · have hrows : OrdersOn (· ∈ rows) (rowOrder m.now clauses) :=
      (ordersOn_rowOrder (h.sound.elementTy_floatFree hm) hplain).imp fun v hv =>
        ⟨h.deep hm v hv, hkeys v hv⟩
    refine Sorts.unique hrows (h.sorts_shown hm (hsorted.congr fun a ha b hb => ?_)) hsorts
    have ha' := h.sorts.mem_iff.mp ha
    have hb' := h.sorts.mem_iff.mp hb
    exact hcsorder a b (h.viewable a ha') (h.viewable b hb') (hview a ha') (hview b hb')

end Yields
end SeqQuery
