/-
# Composed queries mean what lists mean

A chain of operations on a query is split into stages: a filter, a projection, a dropping
of repeats, or an order by a first key and the keys that break its ties. On a list each
stage does what its name says, one after the other. A query over rows in memory that is
composed from the same stages has the very rows that the last list has.

This needs plain lambdas. A constant record may hold a text where its type says a number,
and then keys of one type need not be ordered: dropping repeats before sorting is not the
same as dropping them after.

Key definitions: `Stage`, `Stage.steps`, `Stage.run`, `Stage.runAll`, `Shows`.
Key theorems: `Stage.sorts_of_run_order`, `Shows.stage`, `Shows.stages`,
`Stage.toValues_of_steps`.
-/
import Mathlib
import SeqQuery.Proofs.OrderGroups

namespace SeqQuery

variable {σ : Type}

/-- A stage of a chain of operations. -/
inductive Stage where
  | filter (p : Lambda)
  | select (f : Lambda)
  | distinct
  | order (first : SortClause) (rest : List SortClause)

namespace Stage

/-- The lambdas of a stage. -/
def lambdas : Stage → List Lambda
  | .filter p => [p]
  | .select f => [f]
  | .distinct => []
  | .order first rest => (first :: rest).map (·.key)

/-- The operations of a stage on a query. -/
def steps : Stage → List (Query.Step σ)
  | .filter p => [.filter p]
  | .select f => [.select f]
  | .distinct => [.distinct true]
  | .order first rest =>
    .orderBy first.key true first.ascending ::
      rest.map fun c => .orderBy c.key false c.ascending

/-- What a stage makes of a list. An order asks for all keys before it sorts. -/
def run (now : Int64) : Stage → List Value → Except ExprError (List Value)
  | .filter p, rows => rows.filterM (p.test now)
  | .select f, rows => rows.mapM (f.apply now)
  | .distinct, rows => .ok rows.eraseDups
  | .order first rest, rows => do
    let _ ← rows.mapM fun v => (first :: rest).mapM fun c => c.key.apply now v
    .ok (rows.mergeSort fun a b => rowOrder now (first :: rest) a b != .gt)

/-- What stages make of a list, one after the other. -/
def runAll (now : Int64) : List Stage → List Value → Except ExprError (List Value)
  | [], rows => .ok rows
  | s :: rest, rows => do
    let rows ← s.run now rows
    runAll now rest rows

variable {now : Int64} {first : SortClause} {rest : List SortClause} {rows rows' : List Value}

/-- An order has its list only where every key has a value at every row. -/
theorem hasValueAt_of_run_order (h : (order first rest).run now rows = .ok rows') :
    (∀ v ∈ rows, ∀ c ∈ first :: rest, c.key.HasValueAt now v) ∧
      rows' = rows.mergeSort fun a b => rowOrder now (first :: rest) a b != .gt := by
  have hkeys : ∀ (v : Value) (keys : List Value),
      ((first :: rest).mapM fun c => c.key.apply now v) = .ok keys ↔
        (∀ c ∈ first :: rest, c.key.HasValueAt now v) ∧
          (first :: rest).map (·.key.valueAt now v) = keys := fun v keys =>
    Outcome.mapM_eq_ok_map fun c u hu => Lambda.valueAt_of_ok hu
  obtain ⟨keys, hall, h⟩ := Outcome.bind_eq_ok.mp h
  refine ⟨fun v hv => ?_, (Except.ok.inj h).symm⟩
  have hrow := ((Outcome.mapM_eq_ok_map fun v keys hv => ((hkeys v keys).mp hv).2).mp hall).1 v hv
  exact ((hkeys v _).mp hrow).1

/-- An order gives the one stable sort of the list by its keys. -/
theorem sorts_of_run_order {known : Param → Prop} {ty : Ty} (hty : ty.isFloatFree)
    (hrows : ∀ v ∈ rows, ty.admitsDeep v) (hkeys : ∀ c ∈ first :: rest, c.key.PlainOn known ty)
    (h : (order first rest).run now rows = .ok rows') :
    Sorts (rowOrder now (first :: rest)) rows rows' := by
  obtain ⟨hvalues, rfl⟩ := hasValueAt_of_run_order h
  have horders : OrdersOn (· ∈ rows) (rowOrder now (first :: rest)) :=
    (ordersOn_rowOrder hty hkeys).imp fun v hv => ⟨hrows v hv, hvalues v hv⟩
  exact Sorts.mergeSort horders

end Stage

/-! ### Queries that are composed from stages -/

/-- A query without row limits, in an order that is not turned over. -/
structure Query.IsPlain (q : Query Memory σ) : Prop where
  range : q.hasRange = false
  forward : q.IsForward

theorem Query.IsPlain.isEmpty {q : Query Memory σ} (h : q.IsPlain) : q.isEmpty = false :=
  isEmpty_of_hasRange h.range

/-- No parameter needs to be known where lambdas mention their own alone. -/
theorem Query.SoundFor.isComposed {m : Memory} {q : Query Memory σ}
    (h : q.SoundFor (fun _ => False) m) : q.IsComposed (fun _ => False) m :=
  ⟨h, fun _ _ _ => nofun, fun _ _ _ => nofun⟩

/-- The rows that a plain query yields, which mentions no parameters but those of its
lambdas. -/
structure Shows (m : Memory) (q : Query Memory σ) (kept sorted rows : List Value) : Prop
    extends Yields (fun _ => False) m q kept sorted rows where
  plain : q.IsPlain

namespace Shows

variable {m : Memory} {q q' : Query Memory σ} {kept sorted rows rows' : List Value}

theorem init (hm : m.IsPlain) : Shows m (m.query : Query Memory σ) m.rows m.rows m.rows :=
  ⟨.init hm, rfl, nofun⟩

/-- A run gives the rows that a plain query yields. -/
theorem run_eq (h : Shows m q kept sorted rows) (hm : m.origin.isFloatFree) :
    q.backend.run q = .ok rows := by
  have hrun := h.toYields.run_eq hm
  rw [Memory.window_of_hasRange h.plain.range] at hrun
  exact hrun

/-- A stage of a query does to its rows what it does to a list. -/
theorem stage (h : Shows m q kept sorted rows) (hm : m.origin.isFloatFree) {s : Stage}
    (hplain : ∀ f ∈ s.lambdas, f.IsPlain) (hsteps : q.steps s.steps = .ok q')
    (hrun : s.run m.now rows = .ok rows') :
    ∃ kept' sorted', Shows m q' kept' sorted' rows' := by
  have hq := h.sound.isComposed
  have hempty := h.plain.isEmpty
  cases s with
  | filter p =>
    obtain ⟨r, hr, hsteps⟩ := Query.steps_cons_eq_ok.mp hsteps
    obtain rfl := Except.ok.inj hsteps
    obtain ⟨hty, -, g, -, hrevision⟩ := Query.filter_eq_ok hr
    have hp : p.IsPlain := hplain p List.mem_cons_self
    obtain ⟨kept', sorted', h'⟩ :=
      h.toYields.filter hq hm hempty ⟨hp.toOver.toNoFloatSum, hty⟩ hr hrun
    refine ⟨kept', sorted', h', ?_⟩
    rcases hrevision with ⟨rfl, -⟩ | ⟨-, joined, rfl, -⟩
    · exact h.plain
    · exact ⟨h.plain.range, h.plain.forward⟩
  | select f =>
    obtain ⟨r, hr, hsteps⟩ := Query.steps_cons_eq_ok.mp hsteps
    obtain rfl := Except.ok.inj hsteps
    obtain ⟨hty, hrevision⟩ := Query.select_eq_ok hr
    have hf : f.IsPlain := hplain f List.mem_cons_self
    obtain ⟨kept', sorted', h'⟩ := h.toYields.select hq hm hempty ⟨hf.toOver, hty⟩ hr hrun
    refine ⟨kept', sorted', h', ?_⟩
    rcases hrevision with ⟨-, rfl⟩ | ⟨g, projection, -, -, -, hnext⟩
    · exact h.plain
    · rw [hnext]
      exact ⟨h.plain.range, h.plain.forward⟩
  | distinct =>
    obtain ⟨r, hr, hsteps⟩ := Query.steps_cons_eq_ok.mp hsteps
    obtain rfl := Except.ok.inj hsteps
    obtain rfl := Except.ok.inj hrun
    refine ⟨kept, sorted, h.toYields.distinct hm hempty hr, ?_⟩
    rcases Query.distinct_eq_ok hr with ⟨rfl, -⟩ | ⟨f, -, -, rfl⟩
    · exact h.plain
    · exact ⟨h.plain.range, h.plain.forward⟩
  | order first rest =>
    obtain ⟨cs, s, hlifts, hclauses, hs, rfl⟩ :=
      Query.steps_group_eq_ok h.plain.range h.plain.forward hsteps
    have htys : ∀ c ∈ first :: rest, c.key.paramTy = q.elementTy :=
      Outcome.forall_mem_of_forall₂ (List.Forall₂.flip (hlifts.imp fun _ _ hlift => hlift.1))
    have hplains : ∀ c ∈ first :: rest, c.key.PlainOn (fun _ => False) q.elementTy := fun c hc =>
      ⟨(hplain c.key (List.mem_map_of_mem hc)).toOver, htys c hc⟩
    have hsorts : Sorts (rowOrder m.now (first :: rest)) rows rows' :=
      Stage.sorts_of_run_order (h.sound.elementTy_floatFree hm) (h.deep hm) hplains hrun
    obtain ⟨sorted', h'⟩ := h.toYields.order hq hm hplains hlifts hclauses
      (Stage.hasValueAt_of_run_order hrun).1 hsorts
    refine ⟨kept, sorted', h', h.plain.range, ?_⟩
    rintro _ ⟨⟩
    exact hs

/-- Stages of a query do to its rows what they do to a list. -/
theorem stages (hm : m.origin.isFloatFree) : ∀ {stages : List Stage} {q : Query Memory σ}
    {kept sorted rows : List Value}, Shows m q kept sorted rows →
    (∀ s ∈ stages, ∀ f ∈ s.lambdas, f.IsPlain) →
    q.steps (stages.flatMap Stage.steps) = .ok q' → Stage.runAll m.now stages rows = .ok rows' →
    ∃ kept' sorted', Shows m q' kept' sorted' rows'
  | [], q, kept, sorted, rows, h, _, hsteps, hrun => by
    obtain rfl := Except.ok.inj hsteps
    obtain rfl := Except.ok.inj hrun
    exact ⟨kept, sorted, h⟩
  | s :: rest, q, kept, sorted, rows, h, hplain, hsteps, hrun => by
    rw [List.forall_mem_cons] at hplain
    rw [List.flatMap_cons, Query.steps_append_eq_ok] at hsteps
    obtain ⟨mid, hmid, hsteps⟩ := hsteps
    obtain ⟨rows₁, hrun₁, hrun⟩ := Outcome.bind_eq_ok.mp hrun
    obtain ⟨kept₁, sorted₁, h₁⟩ := h.stage hm hplain.1 hmid hrun₁
    exact stages hm h₁ hplain.2 hsteps hrun

end Shows

namespace Stage

/-- A query over plain rows in memory that is composed from stages of plain lambdas gives
the list that the stages make of the rows, whenever they make one. -/
theorem toValues_of_steps (m : Memory) (hm : m.IsPlain) (stages : List Stage)
    (hplain : ∀ s ∈ stages, ∀ f ∈ s.lambdas, f.IsPlain) (q : Query Memory σ)
    (hq : m.query.steps (stages.flatMap steps) = .ok q) (rows : List Value)
    (hrows : runAll m.now stages m.rows = .ok rows) :
    (q.toValues Memory.backend).outcome = .ok rows := by
  obtain ⟨kept, sorted, h⟩ := Shows.stages hm.floatFree (Shows.init hm) hplain hq hrows
  exact Memory.toValues_eq h.plain.isEmpty (h.run_eq hm.floatFree)

/-- Repeats are dropped from negated numbers, which are then filtered and sorted. -/
theorem toValues_of_steps_negated :
    let x : Param := ⟨0, "x", .int32⟩
    let m : Memory := ⟨"numbers", .int32, [.int32 3, .int32 1, .int32 2, .int32 1], true, 0⟩
    let negated : Lambda := ⟨x, .unary .negate (.param x) .int32⟩
    let small : Lambda :=
      ⟨x, .binary (.equality .ne) (.param x) (.const (.int32 (-3)) .int32) .bool⟩
    let stages : List Stage :=
      [.select negated, .distinct, .filter small, .order ⟨.identity x, true⟩ []]
    ∃ q : Query Memory Unit, m.query.steps (stages.flatMap steps) = .ok q ∧
      (q.toValues Memory.backend).outcome = .ok [.int32 (-2), .int32 (-1)] := by
  intro x m negated small stages
  have hm : m.IsPlain := by
    refine ⟨?_, rfl⟩
    simp [m, Ty.admitsDeep]
  have hnegate : Expr.mkUnary .negate (.param x) = .ok negated.body := rfl
  have hnegated : negated.IsPlain := by
    refine ⟨.unary (.param x) hnegate, ?_, ?_, ?_⟩ <;>
      simp [negated, x, Expr.nodes, Expr.ty, Ty.isFloatFree]
  have hne : Expr.mkBinary (.equality .ne) (.param x) (.ofValue (.int32 (-3))) = .ok small.body :=
    rfl
  have hsmall : small.IsPlain := by
    refine ⟨.binary (.param x) (.value _) hne, ?_, ?_, ?_⟩ <;>
      simp [small, x, Expr.nodes, Expr.ty, Ty.isFloatFree, Ty.admitsDeep]
  have hidentity : (Lambda.identity x).IsPlain := Lambda.isPlain_identity rfl
  have hplain : ∀ s ∈ stages, ∀ f ∈ s.lambdas, f.IsPlain := by
    simp [stages, lambdas, hnegated, hsmall, hidentity]
  have hrows : runAll m.now stages m.rows = .ok [.int32 (-2), .int32 (-1)] := by cbv
  exact ⟨_, rfl, toValues_of_steps m hm stages hplain _ rfl _ hrows⟩

/-- Lambdas that are plain but for a constant record with a text for a number. The text ties
with every number, so dropping repeats after sorting leaves 2 before 1. -/
theorem toValues_ne_runAll_shallow :
    let r : RecordTy := ⟨"R", .cons "A" .int32 .nil⟩
    let x : Param := ⟨0, "x", .int32⟩
    let m : Memory := ⟨"numbers", .int32, [.int32 0, .int32 2, .int32 0, .int32 1], true, 0⟩
    let named : Lambda := ⟨x, .cond
      (.binary (.equality .eq) (.param x) (.const (.int32 0) .int32) .bool)
      (.member (.const (.record r [.string "a"]) r.ty) "A" .int32) (.param x) .int32⟩
    let stages : List Stage := [.select named, .distinct, .order ⟨.identity x, true⟩ []]
    m.IsPlain ∧
      (∀ s ∈ stages, ∀ f ∈ s.lambdas, f.body.Built ∧
        (∀ p, .param p ∈ f.body.nodes → p.id = f.param.id ∧ p.ty = f.param.ty) ∧
        ∀ n ∈ f.body.nodes, n.ty.isFloatFree) ∧
      runAll m.now stages m.rows = .ok [.string "a", .int32 1, .int32 2] ∧
      ∃ q : Query Memory Unit, m.query.steps (stages.flatMap steps) = .ok q ∧
        (q.toValues Memory.backend).outcome = .ok [.string "a", .int32 2, .int32 1] := by
  intro r x m named stages
  have hm : m.IsPlain := by
    refine ⟨?_, rfl⟩
    simp [m, Ty.admitsDeep]
  have htest : Expr.mkBinary (.equality .eq) (.param x) (.ofValue (.int32 0)) =
      .ok (.binary (.equality .eq) (.param x) (.const (.int32 0) .int32) .bool) := rfl
  have hmember : Expr.mkMember (.ofValue (.record r [.string "a"])) "A" =
      .ok (.member (.const (.record r [.string "a"]) r.ty) "A" .int32) := rfl
  have hcond : Expr.mkCond (.binary (.equality .eq) (.param x) (.const (.int32 0) .int32) .bool)
      (.member (.const (.record r [.string "a"]) r.ty) "A" .int32) (.param x) =
      .ok named.body := rfl
  have hbuilt : named.body.Built :=
    .cond (.binary (.param x) (.value _) htest) (.member (.value _) hmember) (.param x) hcond
  have hidentity : (Lambda.identity x).IsPlain := Lambda.isPlain_identity rfl
  refine ⟨hm, ?_, ?_, ?_⟩
  · have hnamed : (∀ p, .param p ∈ named.body.nodes → p.id = x.id ∧ p.ty = x.ty) ∧
        ∀ n ∈ named.body.nodes, n.ty.isFloatFree := by
      simp [named, x, r, Expr.nodes, Expr.ty, RecordTy.ty, Ty.isFloatFree, Fields.isFloatFree]
    simpa [stages, lambdas] using
      ⟨⟨hbuilt, hnamed⟩, hidentity.built, hidentity.closed, hidentity.floatFree⟩
  · cbv
  · refine ⟨_, rfl, ?_⟩
    cbv

end Stage
end SeqQuery
