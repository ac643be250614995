/-
# What rows in memory give

Rows in memory are filtered, sorted, projected and freed of repeats by steps that may
fail. Where the lambdas of a query have values, each step is a function on lists: sorting
compares rows by the values of their keys (`rowOrder`), which is an order on deep
instances without floating-point numbers, and dropping repeats is `List.eraseDups`.

Key definitions: `Lambda.valueAt`, `Lambda.HasValueAt`, `Lambda.On`, `rowOrder`.
Key theorems: `ordersOn_rowOrder`, `Memory.sortRows_eq`, `dropRepeats_eq_eraseDups`,
`Memory.toValues_eq`.
-/
import SeqQuery.Backend.Memory
import SeqQuery.Proofs.Plain
import SeqQuery.Query.Execute

namespace SeqQuery

/-! ### Values of lambdas -/

namespace Lambda

variable {now : Int64} {f g : Lambda} {v u : Value} {ty : Ty}

/-- The value of a lambda, where it has one. -/
def valueAt (now : Int64) (f : Lambda) (v : Value) : Value :=
  match f.apply now v with
  | .ok u => u
  | .error _ => .null

/-- Whether a lambda has a value. -/
def HasValueAt (now : Int64) (f : Lambda) (v : Value) : Prop :=
  f.apply now v = .ok (f.valueAt now v)

theorem valueAt_of_ok (h : f.apply now v = .ok u) : f.valueAt now v = u := by
  simp [valueAt, h]

theorem hasValueAt_of_ok (h : f.apply now v = .ok u) : f.HasValueAt now v := by
  rw [HasValueAt, valueAt_of_ok h, h]

/-- A lambda over the values of a type, of nothing but what a vocabulary allows. -/
structure On (W : Vocabulary) (ty : Ty) (f : Lambda) : Prop where
  within : f.Over W
  paramTy : f.paramTy = ty

/-- A plain lambda over the values of a type, which may mention parameters that are known. -/
abbrev PlainOn (known : Param → Prop) (ty : Ty) (f : Lambda) : Prop :=
  f.On (Vocabulary.plain.knowing known) ty

/-- A lambda over the values of a type without sums of floating-point numbers. -/
abbrev ExactOn (known : Param → Prop) (ty : Ty) (f : Lambda) : Prop :=
  f.On (Vocabulary.noFloatSum.knowing known) ty

theorem On.fold {W : Vocabulary} (hW : W.Sound) (hf : f.On W ty) :
    f.fold.On W ty ∧ ∀ now v u, f.apply now v = .ok u → f.fold.apply now v = .ok u := by
  obtain ⟨hover, hvalue⟩ := hf.within.foldSound hW
  exact ⟨⟨hover, hf.paramTy⟩, hvalue⟩

variable {known : Param → Prop}

theorem PlainOn.toExactOn (hf : f.PlainOn known ty) : f.ExactOn known ty :=
  ⟨hf.within.toNoFloatSum, hf.paramTy⟩

theorem PlainOn.valueAt_deep (hf : f.PlainOn known ty) (hv : ty.admitsDeep v)
    (h : f.HasValueAt now v) : f.returnTy.admitsDeep (f.valueAt now v) := by
  rw [← hf.paramTy] at hv
  exact hf.within.apply_deep hv h

theorem PlainOn.isFloatFree (hf : f.PlainOn known ty) (hty : ty.isFloatFree) :
    f.returnTy.isFloatFree := by
  rw [← hf.paramTy] at hty
  exact hf.within.isFloatFree hty

end Lambda

/-! ### The order of rows -/

/-- The order of two rows by one clause. -/
def SortClause.order (now : Int64) (c : SortClause) (a b : Value) : Ordering :=
  let o := (c.key.valueAt now a).cmp (c.key.valueAt now b)
  if c.ascending then o else o.swap

/-- The order of two rows by clauses: that of the first clause that tells them apart. -/
def rowOrder (now : Int64) : List SortClause → Value → Value → Ordering
  | [], _, _ => .eq
  | c :: cs, a, b => (c.order now a b).then (rowOrder now cs a b)

section RowOrder

variable {known : Param → Prop} {now : Int64} {ty : Ty} {cs : List SortClause}

theorem rowOrder_append (ds : List SortClause) (a b : Value) : ∀ cs : List SortClause,
    rowOrder now (cs ++ ds) a b = (rowOrder now cs a b).then (rowOrder now ds a b)
  | [] => rfl
  | c :: cs => by
    rw [List.cons_append, rowOrder, rowOrder, rowOrder_append ds a b cs, Ordering.then_assoc]

/-- A row that can be sorted: a deep instance at which every key has a value. -/
def IsSortable (now : Int64) (ty : Ty) (cs : List SortClause) (v : Value) : Prop :=
  ty.admitsDeep v ∧ ∀ c ∈ cs, c.key.HasValueAt now v

theorem ordersOn_order {c : SortClause} (hc : c.key.PlainOn known ty) (hty : ty.isFloatFree) :
    OrdersOn (fun v => ty.admitsDeep v = true ∧ c.key.HasValueAt now v) (c.order now) := by
  have hkeys := (Value.ordersOn_cmp (hc.isFloatFree hty)).comap
    (Q := fun v => ty.admitsDeep v = true ∧ c.key.HasValueAt now v) (c.key.valueAt now)
    fun v hv => hc.valueAt_deep hv.1 hv.2
  by_cases hasc : c.ascending
  · refine hkeys.congr fun a b _ _ => ?_
    rw [SortClause.order, if_pos hasc]
  · refine hkeys.opposite.congr fun a b _ _ => ?_
    rw [SortClause.order, if_neg hasc]

/-- The clauses of plain keys order the rows that can be sorted. -/
theorem ordersOn_rowOrder (hty : ty.isFloatFree) : ∀ {cs : List SortClause},
    (∀ c ∈ cs, c.key.PlainOn known ty) → OrdersOn (IsSortable now ty cs) (rowOrder now cs)
  | [], _ => by
    constructor
    · intro a b _ _
      rfl
    · intro a b c _ _ _ hab _
      exact hab
  | c :: cs, hcs => by
    rw [List.forall_mem_cons] at hcs
    have hfirst : OrdersOn (IsSortable now ty (c :: cs)) (c.order now) :=
      (ordersOn_order hcs.1 hty).imp fun v hv => ⟨hv.1, hv.2 c List.mem_cons_self⟩
    have hrest : OrdersOn (IsSortable now ty (c :: cs)) (rowOrder now cs) :=
      (ordersOn_rowOrder hty hcs.2).imp fun v hv =>
        ⟨hv.1, fun d hd => hv.2 d (List.mem_cons_of_mem c hd)⟩
    exact hfirst.andThen hrest

theorem compareKeys_eq_rowOrder (a b : Value) : ∀ cs : List SortClause,
    compareKeys (cs.map (·.ascending)) (cs.map (·.key.valueAt now a))
      (cs.map (·.key.valueAt now b)) = rowOrder now cs a b
  | [] => rfl
  | c :: cs => by
    rw [List.map_cons, List.map_cons, List.map_cons, compareKeys, compareKeys_eq_rowOrder a b cs]
    rfl

end RowOrder

/-! ### Dropping repeats -/

theorem foldl_keep_eq {P : Value → Prop} (h : EqualOn P) : ∀ {rows : List Value},
    (∀ v ∈ rows, P v) → ∀ kept : List Value, (∀ v ∈ kept, P v) →
    rows.foldl (fun kept v => if kept.any (· == v) then kept else kept ++ [v]) kept =
      kept ++ (rows.filter fun v => !kept.any (· == v)).eraseDups
  | [], _, kept, _ => by simp
  | v :: rows, hrows, kept, hkept => by
    rw [List.forall_mem_cons] at hrows
    rw [List.foldl_cons]
    by_cases hv : kept.any (· == v)
    · rw [if_pos hv, foldl_keep_eq h hrows.2 kept hkept]
      simp [hv]
    · have hnext : ∀ w ∈ kept ++ [v], P w := by
        intro w hw
        rcases List.mem_append.mp hw with hw | hw
        · exact hkept w hw
        · rw [List.mem_singleton.mp hw]
          exact hrows.1
      have hfilter : (rows.filter fun w => !(kept ++ [v]).any (· == w)) =
          (rows.filter fun w => !kept.any (· == w)).filter fun w => !w == v := by
        rw [List.filter_filter]
        refine List.filter_congr fun w hw => ?_
        have hsymm : (v == w) = (w == v) := by
          rw [Bool.eq_iff_iff, h v w hrows.1 (hrows.2 w hw), h w v (hrows.2 w hw) hrows.1, eq_comm]
        simp [hsymm, Bool.and_comm]
      rw [if_neg hv, foldl_keep_eq h hrows.2 _ hnext, hfilter]
      simp [hv, List.eraseDups_cons]

/-- Keeping the first of equal rows is dropping the repeats. -/
theorem dropRepeats_eq_eraseDups {P : Value → Prop} (h : EqualOn P) {rows : List Value}
    (hrows : ∀ v ∈ rows, P v) : dropRepeats rows = rows.eraseDups := by
  have hkeep := foldl_keep_eq h hrows [] (by simp)
  simpa [dropRepeats] using hkeep

/-! ### The steps of a run -/

namespace Memory

variable {now : Int64} {cs : List SortClause} {rows : List Value}

theorem keyed_eq_ok {v : Value} {kv : List Value × Value} :
    keyed now cs v = .ok kv ↔
      (∀ c ∈ cs, c.key.HasValueAt now v) ∧ (cs.map (·.key.valueAt now v), v) = kv := by
  rw [keyed, Outcome.bind_eq_ok]
  simp only [Except.ok.injEq]
  have hkeys : ∀ keys : List Value,
      (cs.mapM fun c => (c.key.apply now v).mapError QueryError.ofExpr) = .ok keys ↔
        (∀ c ∈ cs, c.key.HasValueAt now v) ∧ cs.map (·.key.valueAt now v) = keys := by
    intro keys
    rw [Outcome.mapM_eq_ok_map fun c u hu => Lambda.valueAt_of_ok (Outcome.mapError_eq_ok.mp hu)]
    simp only [Outcome.mapError_eq_ok]
    rfl
  constructor
  · rintro ⟨keys, h, rfl⟩
    obtain ⟨hvalues, rfl⟩ := (hkeys keys).mp h
    exact ⟨hvalues, rfl⟩
  · rintro ⟨hvalues, rfl⟩
    exact ⟨_, (hkeys _).mpr ⟨hvalues, rfl⟩, rfl⟩

/-- Rows are sorted by their keys exactly when every row has them, and then by the order of
rows. -/
theorem sortRows_eq_ok {sorted : List Value} : sortRows now cs rows = .ok sorted ↔
    (∀ v ∈ rows, ∀ c ∈ cs, c.key.HasValueAt now v) ∧
      (rows.mergeSort fun a b => rowOrder now cs a b != .gt) = sorted := by
  have hsort := List.map_mergeSort (l := rows) (f := fun v => (cs.map (·.key.valueAt now v), v))
    (r := fun a b => rowOrder now cs a b != .gt)
    (s := fun a b => compareKeys (cs.map (·.ascending)) a.1 b.1 != .gt)
    fun a _ b _ => by rw [compareKeys_eq_rowOrder]
  have hfst : (rows.mergeSort fun a b => rowOrder now cs a b != .gt) =
      ((rows.map fun v => (cs.map (·.key.valueAt now v), v)).mergeSort
        fun a b => compareKeys (cs.map (·.ascending)) a.1 b.1 != .gt).map (·.2) := by
    rw [← hsort, List.map_map]
    exact (List.map_id _).symm
  rw [sortRows, Outcome.bind_eq_ok, hfst]
  simp only [Outcome.mapM_eq_ok_map fun v kv hv => (keyed_eq_ok.mp hv).2, keyed_eq_ok, and_true,
    Except.ok.injEq]
  constructor
  · rintro ⟨_, ⟨hvalues, rfl⟩, rfl⟩
    exact ⟨hvalues, rfl⟩
  · rintro ⟨hvalues, rfl⟩
    exact ⟨_, ⟨hvalues, rfl⟩, rfl⟩

/-- A filter gives rows exactly when it can be asked at every row. -/
theorem filterRows_eq_ok {p : Lambda} {kept : List Value} :
    filterRows now (some p) rows = .ok kept ↔
      (∀ v ∈ rows, ∃ b, p.test now v = .ok b) ∧
        rows.filter (Outcome.passes (p.test now)) = kept := by
  have hpasses : Outcome.passes (fun v => (p.test now v).mapError QueryError.ofExpr) =
      Outcome.passes (p.test now) := by
    funext v
    cases h : p.test now v <;> simp [Outcome.passes, h, Except.mapError]
  rw [filterRows, Outcome.filterM_eq_ok, hpasses]
  simp only [Outcome.mapError_eq_ok]

theorem projectRows_eq_ok {f : Lambda} {projected : List Value} :
    projectRows now (some f) rows = .ok projected ↔
      (∀ v ∈ rows, f.HasValueAt now v) ∧ rows.map (f.valueAt now) = projected := by
  rw [projectRows, Outcome.mapM_eq_ok_map fun v u hu =>
    Lambda.valueAt_of_ok (Outcome.mapError_eq_ok.mp hu)]
  simp only [Outcome.mapError_eq_ok]
  rfl

end Memory

theorem Rows.toValues_eq (before : List Value) : ∀ rows : List Value,
    (Rows.toValues before (rows.map .ok)).outcome = .ok (before.reverse ++ rows)
  | [] => by simp [toValues]
  | v :: rows => by
    have hrest := toValues_eq (v :: before) rows
    rw [List.reverse_cons, List.append_assoc] at hrest
    exact hrest

/-- Iterating a query yields the rows that a run over its backend gives. -/
theorem Memory.read_outcome {σ α : Type} (q : Query Memory σ) (reader : List Item → Reading α) :
    (Memory.producer.read q reader).outcome =
      (q.backend.run q).bind fun rows => (reader (rows.map .ok)).outcome := by
  have hitems : Memory.producer.iterate q = (q.backend.run q).map (·.map .ok) := rfl
  rw [Producer.read, hitems]
  cases q.backend.run q <;> rfl

/-- A query gives no rows if it is known to have none, and else those that a run over its
backend gives. -/
theorem Memory.toValues_eq_ok {σ : Type} {q : Query Memory σ} {rows : List Value} :
    (q.toValues Memory.backend).outcome = .ok rows ↔
      if q.isEmpty then rows = [] else q.backend.run q = .ok rows := by
  unfold Query.toValues
  split
  · simp [Run.ofOutcome, eq_comm]
  · show (Memory.producer.read q _).outcome = _ ↔ _
    rw [Memory.read_outcome]
    simp only [Rows.toValues_eq, List.reverse_nil, List.nil_append]
    cases q.backend.run q <;> simp [Except.bind]

theorem Memory.toValues_eq {σ : Type} {q : Query Memory σ} {rows : List Value}
    (hempty : q.isEmpty = false) (h : q.backend.run q = .ok rows) :
    (q.toValues Memory.backend).outcome = .ok rows := by
  rw [toValues_eq_ok, hempty]
  exact h

end SeqQuery
