/-
# The least and the greatest row

The least row is the first of the rows sorted by themselves, and the greatest is the first in
the opposite order. The rows become the first sort key of the query, in front of all keys so
far and whether or not their order is turned over, so what sorts first is least or greatest
whatever else the query does. Repeats need not be dropped for it.

Key definitions: `Query.rowKey`, `Query.byRows`, `Query.showsRecords`, `ExtremeOf`.
Key theorems: `Query.orderByRows_eq`, `Query.clauses_byRows`, `Query.PlainView.run_byRows`,
`Memory.aggregate_extreme`, `Query.execute_extremes`.
-/
import Mathlib
import SeqQuery.Proofs.Answers
import SeqQuery.Proofs.OrderGroups

namespace SeqQuery

variable {σ : Type} {known : Param → Prop} {m : Memory} {q : Query Memory σ}

/-! ### Sorting by the rows -/

namespace Query

/-- The rows as a sort key. -/
def rowKey (q : Query Memory σ) : Lambda :=
  match q.projector with
  | none => .identity (.own q.source.origin)
  | some f => f

/-- The query sorted by its rows first, which keeps repeats. -/
def byRows (q : Query Memory σ) (ascending : Bool) : Query Memory σ :=
  ⟨{ q.source with
      sorting := some (match q.source.sorting with
        | none => .start q.rowKey.fold ascending
        | some s => s.push q.rowKey.fold true ascending) },
    q.projection.map fun p => ⟨p.lambda, false⟩⟩

/-- Whether the rows are records as the backend has them, which have no order. -/
def showsRecords (q : Query Memory σ) : Bool :=
  q.projection.isNone && q.elementTy.record?.isSome

/-- Sorting a query without row limits by its rows succeeds. -/
theorem orderByRows_eq (hrange : q.hasRange = false) (ascending : Bool) :
    q.keepRepeats.orderByRows ascending = .ok (q.byRows ascending) := by
  have hempty : q.source.isEmpty = false := isEmpty_of_hasRange hrange
  have hrange' : q.source.hasRange = false := hrange
  obtain ⟨hskip, -⟩ := Source.hasRange_eq_false.mp hrange
  have hkeep : q.keepRepeats = ⟨q.source, q.projection.map fun p => ⟨p.lambda, false⟩⟩ := by
    obtain ⟨source, projection⟩ := q
    match projection with
    | none => rfl
    | some ⟨f, false⟩ => rfl
    | some ⟨f, true⟩ => exact if_pos hskip
  rw [hkeep]
  obtain ⟨source, projection⟩ := q
  cases projection <;>
    simp only [orderByRows, Source.orderBy, Option.map_none, Option.map_some, hempty, hrange',
      Bool.false_eq_true, if_false] <;> rfl

theorem clauses_byRows (ascending : Bool) :
    (q.byRows ascending).clauses = ⟨q.rowKey.fold, ascending⟩ :: q.clauses := by
  let c : SortClause := ⟨q.rowKey.fold, ascending⟩
  rw [clauses_of_some rfl]
  cases hs : q.source.sorting with
  | none =>
    rw [clauses_of_none hs]
    exact (Sorting.splits_start c).clauses_eq
  | some s =>
    rw [clauses_of_some hs]
    exact (Sorting.splits_push_new s c).clauses_eq

theorem projector_byRows (ascending : Bool) : (q.byRows ascending).projector = q.projector := by
  show Option.map _ (Option.map _ _) = _
  rw [Option.map_map]
  rfl

theorem view_byRows (ascending : Bool) (now : Int64) :
    (q.byRows ascending).view now = q.view now := by
  funext v
  simp only [view, projector_byRows]

theorem listed_byRows (ascending : Bool) (now : Int64) (sorted : List Value) :
    (q.byRows ascending).listed now sorted = sorted.map (q.view now) := by
  have hdistinct : (q.byRows ascending).isDistinct = false := by
    obtain ⟨source, projection⟩ := q
    cases projection <;> rfl
  rw [listed, hdistinct, view_byRows]
  rfl

/-- The key is what the query shows of a row. -/
theorem PlainView.rowKey_apply (h : q.PlainView known m) (hm : m.origin.isFloatFree) {now : Int64}
    {v : Value} (hview : q.HasViewAt now v) : q.rowKey.fold.apply now v = .ok (q.view now v) := by
  have hkey : q.rowKey.PlainOn known m.origin ∧ q.rowKey.apply now v = .ok (q.view now v) := by
    cases hproj : q.projector with
    | none =>
      have hidentity : q.rowKey = .identity (.own q.source.origin) := by
        simp only [rowKey, hproj]
      have hown : (Param.own q.source.origin).ty.isFloatFree := by
        rw [h.origin]
        exact hm
      rw [hidentity]
      refine ⟨⟨(Lambda.isPlain_identity hown).toOver, h.origin⟩, ?_⟩
      simp only [view, hproj]
      exact Lambda.apply_of_isIdentity (Lambda.isIdentity_iff.mpr ⟨_, rfl, rfl⟩) now v
    | some f =>
      have hf : q.rowKey = f := by simp only [rowKey, hproj]
      rw [hf]
      refine ⟨h.projector f hproj, ?_⟩
      simp only [view, hproj]
      exact hview f hproj
  exact (hkey.1.fold Vocabulary.sound_plain).2 _ _ _ hkey.2

end Query

/-- The order of two values in a direction. -/
def Value.cmpBy (ascending : Bool) (a b : Value) : Ordering :=
  if ascending then a.cmp b else (a.cmp b).swap

theorem Value.ordersOn_cmpBy {ty : Ty} (hty : ty.isFloatFree) (ascending : Bool) :
    OrdersOn (fun v => ty.admitsDeep v = true) (cmpBy ascending) := by
  cases ascending with
  | true => exact ordersOn_cmp hty
  | false => exact (ordersOn_cmp hty).opposite

/-- A run without row limits shows the rows that its filter keeps, in some order. -/
theorem Query.PlainView.mem_of_run (h : q.PlainView known m) (hm : m.IsPlain)
    (hrange : q.hasRange = false) {rows : List Value} (hrows : q.backend.run q = .ok rows) :
    ∃ kept, Memory.filterRows m.now q.source.predicate m.rows = .ok kept ∧
      (∀ v ∈ kept, m.origin.admitsDeep v ∧ (∀ c ∈ q.clauses, c.key.HasValueAt m.now v) ∧
        q.HasViewAt m.now v) ∧ ∀ v, v ∈ rows ↔ ∃ u ∈ kept, q.view m.now u = v := by
  have hbackend : q.backend = m := h.backend
  rw [hbackend, Memory.run_eq_ok] at hrows
  obtain ⟨kept, hfilters, hvalues, rfl⟩ := hrows
  have hkept : ∀ v ∈ kept, m.origin.admitsDeep v := fun v hv =>
    hm.deep v (Memory.filterRows_subset hfilters v hv)
  refine ⟨kept, hfilters, fun v hv => ⟨hkept v hv, hvalues v hv⟩, fun v => ?_⟩
  generalize hsorted : (kept.mergeSort fun a b => rowOrder m.now q.clauses a b != .gt) = sorted
  have hmem : ∀ u, u ∈ sorted ↔ u ∈ kept := by
    intro u
    rw [← hsorted, List.mem_mergeSort]
  have hdeep : ∀ u ∈ sorted, m.origin.admitsDeep u ∧ q.HasViewAt m.now u := fun u hu =>
    ⟨hkept u ((hmem u).mp hu), (hvalues u ((hmem u).mp hu)).2⟩
  rw [Memory.window_of_hasRange hrange, h.listed_eq hm.floatFree hdeep,
    h.mem_shown hm.floatFree hdeep]
  simp only [hmem]

/-- A query sorted by its rows first gives the same rows, up to repeats, in their order,
whatever the other keys are. -/
theorem Query.PlainView.run_byRows (h : q.PlainView known m) (hm : m.IsPlain)
    (hrange : q.hasRange = false) {rows : List Value} (hrows : q.backend.run q = .ok rows)
    (ascending : Bool) : ∃ rows',
      (q.byRows ascending).backend.run (q.byRows ascending) = .ok rows' ∧
        (∀ v, v ∈ rows' ↔ v ∈ rows) ∧ (∀ v ∈ rows, q.elementTy.admitsDeep v) ∧
          rows'.Pairwise fun a b => a.cmpBy ascending b ≠ .gt := by
  obtain ⟨kept, hfilters, hkept, hmem⟩ := h.mem_of_run hm hrange hrows
  have hdeep : ∀ u ∈ kept, q.elementTy.admitsDeep (q.view m.now u) := fun u hu =>
    h.view_deep (hkept u hu).1 (hkept u hu).2.2
  have hkeyed : ∀ u ∈ kept, q.rowKey.fold.apply m.now u = .ok (q.view m.now u) := fun u hu =>
    h.rowKey_apply hm.floatFree (hkept u hu).2.2
  have hvalues : ∀ v ∈ kept, (∀ c ∈ (q.byRows ascending).clauses, c.key.HasValueAt m.now v) ∧
      (q.byRows ascending).HasViewAt m.now v := by
    intro v hv
    rw [Query.clauses_byRows, List.forall_mem_cons, Query.HasViewAt, Query.projector_byRows]
    exact ⟨⟨Lambda.hasValueAt_of_ok (hkeyed v hv), (hkept v hv).2.1⟩, (hkept v hv).2.2⟩
  have hbackend : (q.byRows ascending).backend = m := h.backend
  have hrun := (Memory.run_eq_ok (q := q.byRows ascending)).mpr ⟨kept, hfilters, hvalues, rfl⟩
  have hrange' : (q.byRows ascending).hasRange = false := hrange
  rw [Memory.window_of_hasRange hrange', Query.listed_byRows, Query.clauses_byRows] at hrun
  rw [hbackend]
  refine ⟨_, hrun, fun v => ?_, fun v hv => ?_, List.pairwise_map.mpr ?_⟩
  · rw [hmem, List.mem_map]
    simp only [List.mem_mergeSort]
  · obtain ⟨u, hu, rfl⟩ := (hmem v).mp hv
    exact hdeep u hu
  · have horders : OrdersOn (· ∈ kept) fun a b =>
        (q.view m.now a).cmpBy ascending (q.view m.now b) :=
      (Value.ordersOn_cmpBy (h.elementTy_floatFree hm.floatFree) ascending).comap _ hdeep
    refine horders.pairwise_mergeSort (fun a b ha hb => ?_) fun a ha => ha
    -- the first clause compares what the query shows of the rows
    have hfirst : SortClause.order m.now ⟨q.rowKey.fold, ascending⟩ a b =
        (q.view m.now a).cmpBy ascending (q.view m.now b) := by
      simp only [SortClause.order, Value.cmpBy, Lambda.valueAt_of_ok (hkeyed a ha),
        Lambda.valueAt_of_ok (hkeyed b hb)]
    rw [rowOrder, hfirst]
    cases (q.view m.now a).cmpBy ascending (q.view m.now b) with
    | lt => simp
    | gt => simp
    | eq => split <;> simp

/-! ### Aggregates -/

/-- Whether an answer is a least or, the other way round, a greatest item of a list, which
there is none of without items. -/
def ExtremeOf (ascending : Bool) (rows : List Value) (answer : Except QueryError Value) : Prop :=
  if rows.isEmpty then answer = .error .emptyResult
  else ∃ v ∈ rows, answer = .ok v ∧ ∀ w ∈ rows, v.cmp w ≠ if ascending then .gt else .lt

theorem Value.cmpBy_ne_gt {ascending : Bool} {v w : Value} (h : v.cmpBy ascending w ≠ .gt) :
    v.cmp w ≠ if ascending then .gt else .lt := by
  cases ascending with
  | true => exact h
  | false =>
    intro hlt
    exact h (congrArg Ordering.swap hlt)

/-- The first of the same rows in their order is an extreme of the rows. -/
theorem extremeOf_head {ascending : Bool} {rows sorted : List Value}
    (hmem : ∀ v, v ∈ sorted ↔ v ∈ rows) (hrefl : ∀ v ∈ rows, v.cmp v = .eq)
    (hsorted : sorted.Pairwise fun a b => a.cmpBy ascending b ≠ .gt) :
    ExtremeOf ascending rows (sorted.head?.elim (.error .emptyResult) .ok) := by
  cases sorted with
  | nil =>
    obtain rfl : rows = [] := List.eq_nil_iff_forall_not_mem.mpr fun v hv => nomatch (hmem v).mpr hv
    rfl
  | cons v sorted =>
    have hv : v ∈ rows := (hmem v).mp List.mem_cons_self
    rw [ExtremeOf, if_neg (by simpa using List.ne_nil_of_mem hv)]
    refine ⟨v, hv, rfl, fun w hw => Value.cmpBy_ne_gt ?_⟩
    rcases List.mem_cons.mp ((hmem w).mpr hw) with rfl | hw
    · rw [Value.cmpBy, hrefl w hv]
      cases ascending <;> decide
    · exact (List.pairwise_cons.mp hsorted).1 w hw

/-- The aggregate that asks for the first row in a direction. -/
def Aggregate.extreme (ascending : Bool) : Aggregate :=
  if ascending then .minimum else .maximum

namespace Memory

variable {rows : List Value}

theorem aggregate_extreme_eq (hrange : q.hasRange = false) (ascending : Bool) :
    Memory.backend.aggregate q (.extreme ascending) =
      if q.showsRecords then .ofOutcome (.error (.notSupported (.fullScan (.extreme ascending))))
      else Memory.producer.readAggregate (q.byRows ascending) .first := by
  have hempty : q.isEmpty = false := Query.isEmpty_of_hasRange hrange
  have hempty' : (q.byRows ascending).isEmpty = false := Query.isEmpty_of_hasRange hrange
  have hfirst : q.asFirst? (.extreme ascending) =
      if q.showsRecords then .ok none else .ok (some (q.byRows ascending)) := by
    have hsorted := congrArg (·.map some) (Query.orderByRows_eq hrange ascending)
    split
    · next hrecords => cases ascending <;> exact if_pos hrecords
    · next hrecords => cases ascending <;> exact (if_neg hrecords).trans hsorted
  show Producer.answerBy (Producer.answerBy (Memory.producer.readAggregate · .first)
    (Memory.producer.readAggregate · .first) · .first) (Memory.producer.readAggregate · _) q _ = _
  by_cases hrecords : q.showsRecords
  · rw [if_pos hrecords] at hfirst
    simp only [Producer.answerBy, shortCircuit?_eq_none hempty, hfirst, if_pos hrecords]
    cases ascending <;> rfl
  · rw [if_neg hrecords] at hfirst
    simp only [Producer.answerBy, shortCircuit?_eq_none hempty, hfirst, if_neg hrecords,
      shortCircuit?_eq_none hempty']
    rfl

/-- An extreme of rows that have an order is one of the list that the query gives. -/
theorem aggregate_extreme (hm : m.IsPlain) (h : q.PlainView known m) (hrange : q.hasRange = false)
    (hrecords : q.showsRecords = false) (hrows : q.backend.run q = .ok rows) (ascending : Bool) :
    ExtremeOf ascending rows ((Memory.backend.aggregate q (.extreme ascending)).outcome.bind
      (coerceResult q.elementTy)) := by
  obtain ⟨rows', hrun, hmem, hdeep, hsorted⟩ := h.run_byRows hm hrange hrows ascending
  have hrefl : ∀ v ∈ rows, v.cmp v = .eq := fun v hv =>
    (Value.ordersOn_cmp (h.elementTy_floatFree hm.floatFree)).refl (hdeep v hv)
  have hanswer : (Memory.backend.aggregate q (.extreme ascending)).outcome.bind
      (coerceResult q.elementTy) = rows'.head?.elim (.error .emptyResult) .ok := by
    rw [aggregate_extreme_eq hrange, if_neg (Bool.eq_false_iff.mp hrecords)]
    show ((Memory.producer.read _ Rows.first).andThen (Producer.rowOr _)).outcome.bind _ = _
    rw [read_one hrun]
    refine coerce_rowOr rfl fun v hv => Ty.admits_of_admitsDeep (hdeep v ?_)
    exact (hmem v).mp (List.mem_of_mem_head? hv)
  rw [hanswer]
  exact extremeOf_head hmem hrefl hsorted

end Memory

/-! ### Terminals -/

namespace Query

variable {types : Nat → Ty}

/-- A selector projects the rows, and keeps a view plain. -/
theorem ComposedView.selectBy (h : q.ComposedView (Param.IsTyped types) m) {f : Option Lambda}
    (hf : ∀ g, f = some g → g.IsDeep types) {r : Revision (Query Memory σ)}
    (hstep : q.selectBy f = .ok r) : (r.of q).ComposedView (Param.IsTyped types) m := by
  cases f with
  | none =>
    obtain rfl := Except.ok.inj hstep
    exact h
  | some f => exact (h.select (hf f rfl).over (hf f rfl).own.fits hstep).1

theorem hasRange_of_selectBy {f : Option Lambda} {r : Revision (Query Memory σ)}
    (hstep : q.selectBy f = .ok r) : (r.of q).hasRange = q.hasRange := by
  cases f with
  | none =>
    obtain rfl := Except.ok.inj hstep
    rfl
  | some f =>
    obtain ⟨-, ⟨-, rfl⟩ | ⟨g, projection, -, -, -, hnext⟩⟩ := select_eq_ok hstep
    · rfl
    · rw [hnext]
      rfl

/-- The least and the greatest row of a query without row limits are those of the list that
it gives, projected by the selector. Records as the backend has them are refused. -/
theorem execute_extremes (types : Nat → Ty) (m : Memory) (hm : m.IsPlain) (ops : List (Step σ))
    (hops : ∀ s ∈ ops, s.ProjectsDeep types) (q : Query Memory σ) (hq : m.query.steps ops = .ok q)
    (hrange : q.hasRange = false) (f : Option Lambda) (hf : ∀ g, f = some g → g.IsDeep types)
    (r : Revision (Query Memory σ)) (hselect : q.selectBy f = .ok r) (rows : List Value)
    (hrows : ((r.of q).toValues Memory.backend).outcome = .ok rows) :
    if (r.of q).showsRecords then
      (q.execute Memory.backend (.min f)).outcome = .error (.notSupported (.fullScan .minimum)) ∧
      (q.execute Memory.backend (.max f)).outcome = .error (.notSupported (.fullScan .maximum))
    else
      ExtremeOf true rows (q.execute Memory.backend (.min f)).outcome ∧
      ExtremeOf false rows (q.execute Memory.backend (.max f)).outcome := by
  have h : (r.of q).ComposedView (Param.IsTyped types) m :=
    (IsComposed.init.toComposedView.steps hops hq).selectBy hf hselect
  have hrange' : (r.of q).hasRange = false := (hasRange_of_selectBy hselect).trans hrange
  have hempty : (r.of q).isEmpty = false := isEmpty_of_hasRange hrange'
  rw [Memory.toValues_eq_ok, hempty, if_neg Bool.false_ne_true] at hrows
  have hmin : (q.execute Memory.backend (.min f)).outcome =
      (Memory.backend.aggregate (r.of q) (.extreme true)).outcome.bind
        (coerceResult (r.of q).elementTy) := by
    have haccepted : q.rewrite (.min f) = .ok (q.rowRequest .minimum r) :=
      congrArg (Except.map (q.rowRequest .minimum)) hselect
    rw [execute_eq haccepted]
    exact if_neg (Bool.eq_false_iff.mp hempty)
  have hmax : (q.execute Memory.backend (.max f)).outcome =
      (Memory.backend.aggregate (r.of q) (.extreme false)).outcome.bind
        (coerceResult (r.of q).elementTy) := by
    have haccepted : q.rewrite (.max f) = .ok (q.rowRequest .maximum r) :=
      congrArg (Except.map (q.rowRequest .maximum)) hselect
    rw [execute_eq haccepted]
    exact if_neg (Bool.eq_false_iff.mp hempty)
  rw [hmin, hmax]
  split
  · next hrecords =>
    rw [Memory.aggregate_extreme_eq hrange', if_pos hrecords,
      Memory.aggregate_extreme_eq hrange', if_pos hrecords]
    exact ⟨rfl, rfl⟩
  · next hrecords =>
    have hextreme := Memory.aggregate_extreme hm h.toPlainView hrange'
      (Bool.eq_false_iff.mpr hrecords) hrows
    exact ⟨hextreme true, hextreme false⟩

/-- The least and the greatest of negated numbers, which are sorted and turned over. -/
theorem execute_extremes_negated :
    let x : Param := ⟨0, "x", .int32⟩
    let m : Memory := ⟨"numbers", .int32, [.int32 3, .int32 1, .int32 2, .int32 1], true, 0⟩
    let negated : Lambda := ⟨x, .unary .negate (.param x) .int32⟩
    let ops : List (Step Unit) := [.orderBy (.identity x) true true, .reverse]
    let rows : List Value := [.int32 (-3), .int32 (-2), .int32 (-1), .int32 (-1)]
    ∃ q r, m.query.steps ops = .ok q ∧ q.select negated = .ok r ∧
      ((r.of q).toValues Memory.backend).outcome = .ok rows ∧
      ExtremeOf true rows (q.execute Memory.backend (.min (some negated))).outcome ∧
      ExtremeOf false rows (q.execute Memory.backend (.max (some negated))).outcome := by
  intro x m negated ops rows
  let types : Nat → Ty := fun _ => .int32
  have hm : m.IsPlain := by
    refine ⟨?_, rfl⟩
    simp [m, Ty.admitsDeep]
  have hidentity : (Lambda.identity x).IsDeep types := Lambda.isDeep_identity rfl rfl
  have hnegate : Expr.mkUnary .negate (.param x) = .ok negated.body := rfl
  have hnegated : negated.IsDeep types := hidentity.unary hnegate rfl
  have hops : ∀ s ∈ ops, s.ProjectsDeep types := by
    simp [ops, Step.ProjectsDeep]
  have hselector : ∀ g, some negated = some g → g.IsDeep types := by
    rintro _ ⟨⟩
    exact hnegated
  refine ⟨_, _, rfl, rfl, ?hrows, ?_⟩
  case hrows => cbv
  exact execute_extremes types m hm ops hops _ rfl rfl (some negated) hselector _ rfl rows (by cbv)

/-- A selector whose values are not of its type gives a list, but the first of its rows is
held to the type. -/
theorem execute_ne_extremes_shallow :
    let r : RecordTy := ⟨"R", .cons "A" .int32 .nil⟩
    let x : Param := ⟨0, "x", .int32⟩
    let named : Lambda := ⟨x, .member (.const (.record r [.string "a"]) r.ty) "A" .int32⟩
    let m : Memory := ⟨"numbers", .int32, [.int32 0], true, 0⟩
    m.IsPlain ∧ named.IsTyped (fun _ => .int32) ∧
    ∃ revision, (m.query : Query Memory Unit).select named = .ok revision ∧
      ((revision.of m.query).toValues Memory.backend).outcome = .ok [.string "a"] ∧
      ((m.query : Query Memory Unit).execute Memory.backend (.min (some named))).outcome =
        .error (.coercionFailure "String" "Int32") := by
  intro r x named m
  have hmember : Expr.mkMember (.ofValue (.record r [.string "a"])) "A" = .ok named.body := rfl
  refine ⟨⟨?_, rfl⟩, ⟨.member (.value _) hmember, ?_, rfl, ?_⟩, _, rfl, ?_, ?_⟩
  · simp [m, Ty.admitsDeep]
  · simp [named, r, Expr.nodes, Expr.ty, RecordTy.ty, Ty.isFloatFree, Fields.isFloatFree]
  · simp [named, Expr.nodes]
  all_goals cbv

end Query
end SeqQuery
