/-
# The rows of a query from their end

The last row is asked for as the first one in the opposite order, and a row at an index from
the end as the row at that index in the opposite order. Sorting is stable both ways, so rows
that tie come in the order of the backend both ways, and of rows that are shown alike the
first in the opposite order is kept. The opposite order gives the rows turned around where
neither can be seen (`Query.IsReversible`): where rows that tie are shown alike, and, if
repeats are dropped, all rows between two that are shown alike are shown so too.

Key definition: `Query.IsReversible`.
Key theorems: `rowOrder_opposite`, `Yields.reverse`, `Query.execute_fromEnd`.
-/
import Mathlib
import SeqQuery.Proofs.Answers
import SeqQuery.Proofs.Requests
import SeqQuery.Proofs.SortClauses

namespace SeqQuery

variable {σ : Type} {known : Param → Prop} {m : Memory} {q : Query Memory σ}

/-! ### Opposite clauses -/

theorem rowOrder_opposite (now : Int64) (a b : Value) : ∀ cs : List SortClause,
    rowOrder now (cs.map SortClause.opposite) a b = (rowOrder now cs a b).swap
  | [] => rfl
  | c :: cs => by
    have horder : c.opposite.order now a b = (c.order now a b).swap := by
      cases hasc : c.ascending <;> simp [SortClause.order, SortClause.opposite, hasc]
    rw [List.map_cons, rowOrder, rowOrder, horder, rowOrder_opposite now a b cs,
      Ordering.swap_then]

/-! ### Rows in the opposite order -/

namespace Query

theorem clauses_reverse {s : Sorting} (hs : q.source.sorting = some s) :
    (q.sortedBy s.reverse).clauses = q.clauses.map SortClause.opposite := by
  rw [clauses_of_some hs, clauses_of_some rfl, Sorting.clauses_reverse]

/-- Whether the order of a query can be turned over without a trace of the rows that tie in
it: they are shown alike, and repeats are next to each other. -/
structure IsReversible (now : Int64) (q : Query Memory σ) (kept : List Value) : Prop where
  ties : ∀ u ∈ kept, ∀ v ∈ kept, rowOrder now q.clauses u v = .eq → q.view now u = q.view now v
  repeats : q.isDistinct → ∀ u ∈ kept, ∀ v ∈ kept, ∀ w ∈ kept, q.view now u = q.view now w →
    rowOrder now q.clauses u v ≠ .gt → rowOrder now q.clauses v w ≠ .gt →
    q.view now v = q.view now u

end Query

namespace Yields

variable {kept sorted rows : List Value} {s : Sorting}

/-- A query in the opposite order yields the rows turned around. -/
theorem reverse (h : Yields known m q kept sorted rows) (hm : m.origin.isFloatFree)
    (hs : q.source.sorting = some s) (hreversible : q.IsReversible m.now kept) :
    ∃ sorted', Yields known m (q.sortedBy s.reverse) kept sorted' rows.reverse := by
  have hkeys : ∀ c ∈ q.clauses, c.key.PlainOn known m.origin ∧
      ∀ v ∈ kept, c.key.HasValueAt m.now v := fun c hc =>
    ⟨h.sound.keys c hc, fun v hv => (h.sortable v hv).2 c hc⟩
  rw [Query.clauses_of_some hs] at hkeys
  obtain ⟨sorted', h'⟩ := h.sortedBy hm (Sorting.forall_clauses_reverse
    (P := fun k => k.PlainOn known m.origin ∧ ∀ v ∈ kept, k.HasValueAt m.now v).mpr hkeys)
  have horder : rowOrder m.now (q.sortedBy s.reverse).clauses =
      fun a b => (rowOrder m.now q.clauses a b).swap := by
    funext a b
    rw [Query.clauses_reverse hs, rowOrder_opposite]
  have hsorts := h'.sorts
  rw [horder] at hsorts
  have hshown : q.shown m.now sorted' = rows.reverse := by
    rw [← h.gives]
    unfold Query.shown
    cases hdistinct : q.isDistinct with
    | false => exact h.sorts.map_opposite (h.ordersOn hm) hsorts hreversible.ties
    | true =>
      refine h.sorts.eraseDups_map_opposite (h.ordersOn hm) hsorts (h.equalOn hm) ?_
        (hreversible.repeats hdistinct)
      exact fun v hv => h.sound.view_deep (h.sortable v hv).1 (h.viewable v hv)
  rw [hshown] at h'
  exact ⟨sorted', h'⟩

end Yields

namespace Query

variable {kept rows : List Value} {s : Sorting}

/-- A query in the opposite order gives its list turned around. -/
theorem SoundFor.toValues_reverse (h : q.SoundFor known m) (hm : m.IsPlain)
    (hrange : q.hasRange = false) (hs : q.source.sorting = some s)
    (hkept : Memory.filterRows m.now q.source.predicate m.rows = .ok kept)
    (hreversible : q.IsReversible m.now kept)
    (hrows : (q.toValues Memory.backend).outcome = .ok rows) :
    ((q.sortedBy s.reverse).toValues Memory.backend).outcome = .ok rows.reverse := by
  rw [Memory.toValues_eq_ok, isEmpty_of_hasRange hrange, if_neg Bool.false_ne_true] at hrows
  obtain ⟨kept', sorted, all, hyields, hall⟩ := Yields.of_run hm h hrows
  rw [Memory.window_of_hasRange hrange] at hall
  subst hall
  obtain rfl : kept' = kept := Except.ok.inj (hyields.filters.symm.trans hkept)
  obtain ⟨sorted', hreversed⟩ := hyields.reverse hm.floatFree hs hreversible
  have hrun := hreversed.run_eq hm.floatFree
  have hrange' : (q.sortedBy s.reverse).hasRange = false := hrange
  rw [Memory.window_of_hasRange hrange'] at hrun
  exact Memory.toValues_of_run hrun

theorem reverse_of_sorting (hrange : q.hasRange = false) (hs : q.source.sorting = some s) :
    q.reverse = .ok (.revised (q.sortedBy s.reverse)) := by
  have hempty : q.source.isEmpty = false := isEmpty_of_hasRange hrange
  have hrange' : q.source.hasRange = false := hrange
  simp only [reverse, Source.reverse, hempty, hrange', hs, Bool.false_eq_true, if_false]
  rfl

theorem lastBy_none {q' : Query Memory σ} (hstep : q.reverse = .ok (.revised q')) :
    q.lastBy none = .ok (.revised q') := by
  simp only [lastBy, filterBy, Outcome.ok_bind, Revision.andThen, Revision.of_unchanged, hstep]
  rfl

/-- An index from the end is one from the start of the query turned over. -/
theorem fromIndex_fromEnd {q' : Query Memory σ} (hordered : q.isOrdered)
    (hstep : q.reverse = .ok (.revised q')) (k : Nat) :
    ∃ r, q.fromIndex (.fromEnd (k + 1)) = .ok r ∧ r.of q = (q'.skipRows k).of q' := by
  rw [fromIndex_fromEnd_succ hordered, hstep]
  obtain ⟨r, hr⟩ : ∃ r, (Revision.revised q').andThen q (ε := QueryError)
      (fun turned => .ok (turned.skipRows k)) = .ok r := ⟨_, rfl⟩
  obtain ⟨next, hnext, hof, -⟩ := Revision.andThen_eq_ok hr
  obtain rfl := Except.ok.inj hnext
  exact ⟨r, hr, hof⟩

/-- A query that has an order and no row limits is asked for its last row and for rows from
its end as its list is. -/
theorem execute_fromEnd (types : Nat → Ty) (m : Memory) (hm : m.IsPlain)
    (hsize : m.rows.length ≤ maxRows) (ops : List (Step σ)) (hops : ∀ s ∈ ops, s.IsSound types)
    (q : Query Memory σ) (hq : m.query.steps ops = .ok q) (hordered : q.isOrdered)
    (hrange : q.hasRange = false) (kept : List Value)
    (hkept : Memory.filterRows m.now q.source.predicate m.rows = .ok kept)
    (hreversible : q.IsReversible m.now kept) (rows : List Value)
    (hrows : (q.toValues Memory.backend).outcome = .ok rows) :
    (q.execute Memory.backend (.last none)).outcome =
        rows.getLast?.elim (.error .emptyResult) .ok ∧
      (q.execute Memory.backend (.lastOrDefault none)).outcome =
        rows.getLast?.elim (.ok q.elementTy.zero) .ok ∧
      ∀ k (hk : 1 ≤ k) (hn : k ≤ rows.length),
        (q.execute Memory.backend (.elementAt (.fromEnd k))).outcome =
          .ok (rows.get ⟨rows.length - k, by omega⟩) := by
  have h : q.IsComposed (Param.IsTyped types) m := IsComposed.init.steps hops hq
  obtain ⟨s, hs⟩ := Option.isSome_iff_exists.mp hordered
  have hstep : q.reverse = .ok (.revised (q.sortedBy s.reverse)) := reverse_of_sorting hrange hs
  have hreversed := h.toSoundFor.toValues_reverse hm hrange hs hkept hreversible hrows
  have h' : (q.sortedBy s.reverse).IsComposed (Param.IsTyped types) m := h.reverse hstep
  have hbackend : (q.sortedBy s.reverse).backend = m := h'.backend
  have hlast := lastBy_none hstep
  refine ⟨?_, ?_, fun k hk hn => ?_⟩
  · have haccepted : q.rewrite (.last none) = .ok (q.rowRequest .first _) :=
      congrArg (Except.map (q.rowRequest .first)) hlast
    refine h'.toSoundFor.execute_of_request hm haccepted rfl hreversed nofun rfl ?_
    rw [← List.head?_reverse]
    rfl
  · have haccepted : q.rewrite (.lastOrDefault none) = .ok (q.rowRequest .firstOrDefault _) :=
      congrArg (Except.map (q.rowRequest .firstOrDefault)) hlast
    refine h'.toSoundFor.execute_of_request hm haccepted rfl hreversed nofun rfl ?_
    rw [← List.head?_reverse]
    rfl
  · obtain ⟨k, rfl⟩ := Nat.exists_eq_add_one.mpr hk
    obtain ⟨r, hr, hskipped⟩ := fromIndex_fromEnd hordered hstep k
    have haccepted : q.rewrite (.elementAt (.fromEnd (k + 1))) = .ok (q.rowRequest .first r) :=
      congrArg (Except.map (q.rowRequest .first)) hr
    have hdropped := Memory.toValues_skipRows (hbackend ▸ hsize) hreversed k
    have hhead : (rows.reverse.drop k).head? =
        some (rows.get ⟨rows.length - (k + 1), by omega⟩) := by
      rw [List.head?_drop, List.getElem?_reverse hn, Nat.sub_sub, Nat.add_comm 1,
        List.getElem?_eq_getElem, List.get_eq_getElem]
    refine (h'.skipRows k).toSoundFor.execute_of_request hm haccepted hskipped hdropped nofun
      (congrArg elementTy hskipped) ?_
    exact congrArg (fun v => some (Option.elim v _ _)) hhead

/-- The last of negated numbers in descending order, and the one before it. -/
theorem execute_fromEnd_negated :
    let x : Param := ⟨0, "x", .int32⟩
    let m : Memory := ⟨"numbers", .int32, [.int32 2, .int32 1, .int32 1], true, 0⟩
    let negated : Lambda := ⟨x, .unary .negate (.param x) .int32⟩
    let ops : List (Step Unit) :=
      [.select negated, .distinct true, .orderBy (.identity x) true false]
    ∃ q : Query Memory Unit, m.query.steps ops = .ok q ∧
      (q.toValues Memory.backend).outcome = .ok [.int32 (-1), .int32 (-2)] ∧
      (q.execute Memory.backend (.last none)).outcome = .ok (.int32 (-2)) ∧
      (q.execute Memory.backend (.elementAt (.fromEnd 2))).outcome = .ok (.int32 (-1)) := by
  intro x m negated ops
  let types : Nat → Ty := fun _ => .int32
  have hm : m.IsPlain := by
    refine ⟨?_, rfl⟩
    simp [m, Ty.admitsDeep]
  have hidentity : (Lambda.identity x).IsDeep types := Lambda.isDeep_identity rfl rfl
  have hnegate : Expr.mkUnary .negate (.param x) = .ok negated.body := rfl
  have hnegated : negated.IsDeep types := hidentity.unary hnegate rfl
  have hops : ∀ s ∈ ops, s.IsSound types := by
    simp [ops, Step.IsSound, hnegated, hidentity]
  have hreversible : ∀ q : Query Memory Unit, m.query.steps ops = .ok q →
      q.IsReversible m.now m.rows := by
    intro q hq
    have hone : q.view 0 (.int32 1) = .int32 (-1) := by cases hq; cbv
    have htwo : q.view 0 (.int32 2) = .int32 (-2) := by cases hq; cbv
    have hbefore : rowOrder 0 q.clauses (.int32 1) (.int32 2) = .lt := by cases hq; cbv
    have hafter : rowOrder 0 q.clauses (.int32 2) (.int32 1) = .gt := by cases hq; cbv
    constructor
    · simp [m, hone, htwo, hbefore, hafter]
    · simp [m, hone, htwo, hbefore, hafter]
  refine ⟨_, rfl, ?hrows, ?_⟩
  case hrows => cbv
  obtain ⟨hlast, -, hindex⟩ := execute_fromEnd types m hm (by decide) ops hops _ rfl rfl rfl _ rfl
    (hreversible _ rfl) _ (by cbv)
  exact ⟨hlast, hindex 2 (by decide) (by decide)⟩

/-- The last row need not be the last of the list: rows that tie stay in the order of the
backend, of equal rows another one is kept, and a row that is not of its type is refused. -/
theorem execute_ne_fromEnd :
    let r : RecordTy := ⟨"R", .cons "A" .int32 .nil⟩
    let x : Param := ⟨0, "x", .int32⟩
    let same : Lambda := ⟨x, .const (.int32 0) .int32⟩
    let isTwo : Lambda := ⟨x, .binary (.equality .eq) (.param x) (.const (.int32 2) .int32) .bool⟩
    let named : Lambda := ⟨x, .member (.const (.record r [.string "a"]) r.ty) "A" .int32⟩
    let m : Memory := ⟨"numbers", .int32, [.int32 1, .int32 2, .int32 3], true, 0⟩
    let tied : List (Step Unit) := [.orderBy same true true]
    let repeated : List (Step Unit) :=
      [.orderBy (.identity x) true true, .select isTwo, .distinct true]
    let shallow : List (Step Unit) := [.orderBy (.identity x) true true, .select named]
    (m.IsPlain ∧ ∀ f ∈ [same, isTwo, named, .identity x], f.IsTyped fun _ => .int32) ∧
    (∃ q, m.query.steps tied = .ok q ∧ q.isOrdered ∧ q.hasRange = false ∧
      (q.toValues Memory.backend).outcome = .ok [.int32 1, .int32 2, .int32 3] ∧
      (q.execute Memory.backend (.last none)).outcome = .ok (.int32 1)) ∧
    (∃ q, m.query.steps repeated = .ok q ∧ q.isOrdered ∧ q.hasRange = false ∧
      (q.toValues Memory.backend).outcome = .ok [.bool false, .bool true] ∧
      (q.execute Memory.backend (.last none)).outcome = .ok (.bool false)) ∧
    ∃ q, m.query.steps shallow = .ok q ∧ q.isOrdered ∧ q.hasRange = false ∧
      (q.toValues Memory.backend).outcome = .ok [.string "a", .string "a", .string "a"] ∧
      (q.execute Memory.backend (.last none)).outcome =
        .error (.coercionFailure "String" "Int32") := by
  intro r x same isTwo named m tied repeated shallow
  have hsame : same.body.Built := .value (.int32 0)
  have hmember : Expr.mkMember (.ofValue (.record r [.string "a"])) "A" = .ok named.body := rfl
  have hequals : Expr.mkBinary (.equality .eq) (.param x) (.ofValue (.int32 2)) = .ok isTwo.body :=
    rfl
  refine ⟨⟨⟨?_, rfl⟩, ?_⟩, ⟨_, rfl, rfl, rfl, ?_, ?_⟩, ⟨_, rfl, rfl, rfl, ?_, ?_⟩,
    ⟨_, rfl, rfl, rfl, ?_, ?_⟩⟩
  · simp [m, Ty.admitsDeep]
  · simp only [List.forall_mem_cons]
    refine ⟨⟨hsame, ?_, rfl, ?_⟩, ⟨.binary (.param x) (.value _) hequals, ?_, rfl, ?_⟩,
      ⟨.member (.value _) hmember, ?_, rfl, ?_⟩, ⟨.param x, ?_, rfl, ?_⟩, List.forall_mem_nil _⟩ <;>
      simp [same, isTwo, named, Lambda.identity, x, r, Expr.nodes, Expr.ty, RecordTy.ty,
        Ty.isFloatFree, Fields.isFloatFree, Param.IsTyped]
  all_goals cbv

end Query
end SeqQuery
