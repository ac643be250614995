/-
# Slices

Skipping and limiting the rows of a query, any number of times and in any order, cuts the
list of its rows in the same way (`Query.toValues_cuts`). A query keeps two numbers whatever
its cuts, and the first stops growing at `maxRows`. Both are right after every cut: the
window of the query after it is the window before, cut (`Query.window_cut`). Where rows are
no longer skipped because nothing is left of the limit, or limited because the limit is
already as narrow, the query is not cut at all, and neither is its window.

Key definitions: `Cut`, `Cut.slice`, `Query.cut`.
Key theorems: `Query.steps_cuts`, `Query.window_cut`, `Query.window_cuts`,
`Query.toValues_cuts`.
-/
import Mathlib
import SeqQuery.Proofs.Limits

namespace SeqQuery

variable {β σ : Type}

/-- Rows to be skipped or kept. -/
inductive Cut where
  | skip (n : Int64)
  | take (n : Int64)

namespace Cut

/-- The number of rows to be skipped or kept. -/
def count : Cut → Int64
  | .skip n => n
  | .take n => n

/-- The operation that cuts the rows of a query. -/
def step : Cut → Query.Step σ
  | .skip n => .skip n
  | .take n => .take n

/-- A list, cut. -/
def slice {α : Type} (rows : List α) : Cut → List α
  | .skip n => rows.drop n.toInt.toNat
  | .take n => rows.take n.toInt.toNat

end Cut

namespace Query

/-- A query whose rows are cut. -/
def cut (q : Query β σ) : Cut → Query β σ
  | .skip n => (q.skipRows n.toInt.toNat).of q
  | .take n => (q.takeRows n.toInt.toNat).of q

/-! ### Cutting is always accepted -/

theorem rowCount_eq {name : String} {n : Int64} (h : 0 ≤ n.toInt) :
    rowCount name n = .ok n.toInt.toNat :=
  if_pos h

theorem step_cut (q : Query β σ) {c : Cut} (h : 0 ≤ c.count.toInt) :
    ∃ r, q.step c.step = .ok r ∧ r.of q = q.cut c := by
  cases c with
  | skip n => exact ⟨q.skipRows n.toInt.toNat, congrArg (Except.map _) (rowCount_eq h), rfl⟩
  | take n => exact ⟨q.takeRows n.toInt.toNat, congrArg (Except.map _) (rowCount_eq h), rfl⟩

theorem steps_cuts : ∀ (cuts : List Cut) (q : Query β σ), (∀ c ∈ cuts, 0 ≤ c.count.toInt) →
    q.steps (cuts.map Cut.step) = .ok (cuts.foldl cut q)
  | [], _, _ => rfl
  | c :: cuts, q, h => by
    rw [List.forall_mem_cons] at h
    obtain ⟨r, hr, hcut⟩ := q.step_cut h.1
    rw [List.map_cons, steps_cons_eq_ok]
    refine ⟨r, hr, ?_⟩
    rw [hcut]
    exact steps_cuts cuts (q.cut c) h.2

theorem cut_sameView (q : Query β σ) (c : Cut) : (q.cut c).SameView q := by
  cases c with
  | skip n => exact q.skipRows_sameView _
  | take n => exact q.takeRows_sameView _

/-! ### The window of a query -/

/-- The window of a query whose rows are cut is the window of the query, cut. -/
theorem window_cut {α : Type} (q : Query β σ) (c : Cut) {rows : List α}
    (hsize : rows.length ≤ maxRows) : (q.cut c).window rows = c.slice (q.window rows) := by
  cases c with
  | skip n => exact q.window_skipRows _ hsize
  | take n => exact q.window_takeRows _ rows

theorem window_cuts {α : Type} {rows : List α} (hsize : rows.length ≤ maxRows) :
    ∀ (cuts : List Cut) (q : Query β σ),
      (cuts.foldl cut q).window rows = cuts.foldl Cut.slice (q.window rows)
  | [], _ => rfl
  | c :: cuts, q => by
    rw [List.foldl_cons, List.foldl_cons, window_cuts hsize cuts, q.window_cut c hsize]

/-! ### The rows of a query -/

theorem toValues_cut {q : Query Memory σ} (hsize : q.backend.rows.length ≤ maxRows)
    {rows : List Value} (h : (q.toValues Memory.backend).outcome = .ok rows) (c : Cut) :
    ((q.cut c).toValues Memory.backend).outcome = .ok (c.slice rows) := by
  cases c with
  | skip n => exact Memory.toValues_skipRows hsize h _
  | take n => exact Memory.toValues_takeRows h _

theorem toValues_foldl_cut : ∀ (cuts : List Cut) {q : Query Memory σ} {rows : List Value},
    q.backend.rows.length ≤ maxRows → (q.toValues Memory.backend).outcome = .ok rows →
    ((cuts.foldl cut q).toValues Memory.backend).outcome = .ok (cuts.foldl Cut.slice rows)
  | [], _, _, _, h => h
  | c :: cuts, q, rows, hsize, h => by
    have hbackend : (q.cut c).backend.rows.length ≤ maxRows := by
      rw [(q.cut_sameView c).backend]
      exact hsize
    exact toValues_foldl_cut cuts hbackend (toValues_cut hsize h c)

/-- Rows that are skipped and limited again and again are sliced: the row limits that the
query ends up with give of every list what the single slices give, and so a query in memory
gives the slices of the rows that it gave before. -/
theorem toValues_cuts (cuts : List Cut) (hcuts : ∀ c ∈ cuts, 0 ≤ c.count.toInt) :
    (∀ q : Query β σ, ∃ q', q.steps (cuts.map Cut.step) = .ok q' ∧
      ∀ (α : Type) (rows : List α), rows.length ≤ maxRows →
        q'.window rows = cuts.foldl Cut.slice (q.window rows)) ∧
    (∀ (q : Query Memory σ) (rows : List Value), q.backend.rows.length ≤ maxRows →
      (q.toValues Memory.backend).outcome = .ok rows →
        ∃ q', q.steps (cuts.map Cut.step) = .ok q' ∧
          (q'.toValues Memory.backend).outcome = .ok (cuts.foldl Cut.slice rows)) := by
  refine ⟨fun q => ⟨_, steps_cuts cuts q hcuts, fun _ rows hsize => ?_⟩,
    fun q rows hsize h => ⟨_, steps_cuts cuts q hcuts, ?_⟩⟩
  · exact window_cuts hsize cuts q
  · exact toValues_foldl_cut cuts hsize h

/-- More rows are skipped than can be, of a list and in memory. -/
theorem toValues_cuts_saturated :
    let most : Int64 := 9223372036854775807
    let cuts : List Cut := [.skip 1, .skip most, .skip most, .skip most, .take 2, .skip 1]
    let sliced : List Cut := [.skip 1, .take 5, .skip 1, .take most]
    let rows : List Value := [.int32 4, .int32 3, .int32 3, .int32 1]
    let x : Param := ⟨0, "x", .int32⟩
    let q : Query Memory Unit := ⟨⟨⟨"Rows", .int32, rows, true, 0⟩, none, .int32, none, 0, none,
      some (.start (.identity x) true)⟩, some ⟨⟨x, .unary .negate (.param x) .int32⟩, true⟩⟩
    (∀ c ∈ cuts, 0 ≤ c.count.toInt) ∧ (∀ c ∈ sliced, 0 ≤ c.count.toInt) ∧
    (∃ q', q.steps (cuts.map Cut.step) = .ok q' ∧ q'.source.skip = maxRows ∧
      q'.window rows = cuts.foldl Cut.slice (q.window rows)) ∧
    (q.toValues Memory.backend).outcome = .ok [.int32 (-1), .int32 (-3), .int32 (-4)] ∧
    ∃ q', q.steps (sliced.map Cut.step) = .ok q' ∧
      (q'.toValues Memory.backend).outcome = .ok [.int32 (-4)] := by
  intro most cuts sliced rows x q
  have hcuts : ∀ c ∈ cuts, 0 ≤ c.count.toInt := by decide
  have hsliced : ∀ c ∈ sliced, 0 ≤ c.count.toInt := by decide
  have hsize : rows.length ≤ maxRows := by decide
  have hrows : (q.toValues Memory.backend).outcome =
      .ok [.int32 (-1), .int32 (-3), .int32 (-4)] := by cbv
  refine ⟨hcuts, hsliced, ?_, hrows, ?_⟩
  · obtain ⟨q', hq', hwindow⟩ := (toValues_cuts cuts hcuts).1 q
    refine ⟨q', hq', ?_, hwindow _ rows hsize⟩
    obtain rfl := Except.ok.inj (hq'.symm.trans (steps_cuts cuts q hcuts))
    decide
  · exact (toValues_cuts (β := Memory) sliced hsliced).2 q _ hsize hrows

end Query
end SeqQuery
