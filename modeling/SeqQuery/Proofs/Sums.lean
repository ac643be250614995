/-
# Sums of integers

Integers are added up in 64 bits, row by row, and it is an error when a sum on the way does
not fit. Of 32-bit integers, fewer than 2 ^ 31 never come near that bound
(`sumsFit_of_int32`), so their sum is given back if it fits the type of the rows and refused
otherwise, in whatever order the rows arrive. A sum of 64-bit integers that is given back is
that of the rows as well, but it may be refused although the sum of all rows would fit
(`Query.execute_ne_sum`).

Key definitions: `total`, `sumsFit`, `sumAs`, `Query.AddsUp`.
Key theorems: `sumsFit_iff`, `sumsFit_of_int32`, `Rows.foldAll_sum`, `Memory.aggregate_sum`,
`Query.AddsUp.execute_eq`, `Query.execute_sum`.
-/
import Mathlib
import SeqQuery.Proofs.Answers
import SeqQuery.Proofs.CheckedChains
import SeqQuery.Proofs.Requests

namespace SeqQuery

variable {σ : Type} {q : Query Memory σ} {ty : Ty} {rows rows' : List Value}

/-! ### Sums of lists -/

/-- The sum of integers. -/
def total (rows : List Value) : Int :=
  (rows.map Value.whole).sum

/-- Whether 64 bits hold all sums on the way when rows are added to an integer one by one. -/
def sumsFit : Int → List Value → Bool
  | _, [] => true
  | n, v :: rows => fits 64 (n + v.whole) && sumsFit (n + v.whole) rows

/-- The sum of integers of a type, if 64 bits hold the sums on the way and the type holds the
sum. -/
def sumAs (ty : Ty) (rows : List Value) : Except QueryError Value :=
  if sumsFit 0 rows then
    if fits ty.bits (total rows) then .ok (ty.wrap (total rows))
    else .error (.coercionFailure "Int64" ty.name)
  else .error (.coercionFailure "sum" "Int64")

@[simp] theorem total_nil : total [] = 0 := rfl

@[simp] theorem total_cons (v : Value) (rows : List Value) :
    total (v :: rows) = v.whole + total rows :=
  List.sum_cons

theorem sumAs_nil (hty : ty.isInteger) : sumAs ty [] = .ok ty.zero := by
  rcases Ty.isInteger_iff.mp hty with rfl | rfl <;> rfl

theorem total_perm (h : rows'.Perm rows) : total rows' = total rows :=
  (h.map Value.whole).sum_eq

/-- The sums on the way are those of the first rows. -/
theorem sumsFit_iff : ∀ {rows : List Value} {n : Int}, fits 64 n →
    (sumsFit n rows ↔ ∀ k, fits 64 (n + total (rows.take k)))
  | [], n, hn => by simp [sumsFit, hn]
  | v :: rows, n, hn => by
    rw [sumsFit, Bool.and_eq_true]
    constructor
    · rintro ⟨hv, hrest⟩ (_ | k)
      · simpa using hn
      · rw [List.take_succ_cons, total_cons, ← Int.add_assoc]
        exact (sumsFit_iff hv).mp hrest k
    · intro h
      have hv : fits 64 (n + v.whole) := by simpa using h 1
      refine ⟨hv, (sumsFit_iff hv).mpr fun k => ?_⟩
      have hk := h (k + 1)
      rw [List.take_succ_cons, total_cons, ← Int.add_assoc] at hk
      exact hk

theorem sumsFit_zero : sumsFit 0 rows ↔ ∀ k, fits 64 (total (rows.take k)) := by
  rw [sumsFit_iff (by decide)]
  simp only [Int.zero_add]

/-- The last sum on the way is that of all rows. -/
theorem fits_total (h : sumsFit 0 rows) : fits 64 (total rows) := by
  simpa only [List.take_length] using sumsFit_zero.mp h rows.length

/-! ### Integers of a type -/

namespace Ty

theorem admitsDeep_of_integer (hty : ty.isInteger) {v : Value} (hv : ty.admits v) :
    ty.admitsDeep v := by
  rcases isInteger_iff.mp hty with rfl | rfl <;> cases v <;>
    simp_all [admits, admitsDeep, isNullable]

/-- An integer of a type fits it and is read in 64 bits as it is. -/
theorem whole_fits (hty : ty.isInteger) {v : Value} (hv : ty.admits v) :
    fits ty.bits v.whole ∧ ∃ m, v.int64? = some m ∧ m.toInt = v.whole := by
  have hdeep := admitsDeep_of_integer hty hv
  rcases isInteger_iff.mp hty with rfl | rfl
  · obtain ⟨n, rfl⟩ := admitsDeep_int32.mp hdeep
    refine ⟨fits_iff.mpr ?_, _, rfl, rfl⟩
    rw [Value.whole, Int32.toInt_toInt64]
    exact ⟨n.le_toInt, n.toInt_lt⟩
  · obtain ⟨n, rfl⟩ := admitsDeep_int64.mp hdeep
    exact ⟨fits_iff.mpr ⟨n.le_toInt, n.toInt_lt⟩, n, rfl, rfl⟩

end Ty

/-- The sum of 32-bit integers grows by no more than 2 ^ 31 a row. -/
theorem natAbs_total_le : ∀ {rows : List Value}, (∀ v ∈ rows, Ty.int32.admits v) →
    (total rows).natAbs ≤ Nat.pow 2 31 * rows.length
  | [], _ => by simp
  | v :: rows, h => by
    rw [List.forall_mem_cons] at h
    have hfits : fits (Ty.bits .int32) v.whole := (Ty.whole_fits rfl h.1).1
    have hv := fits_iff.mp hfits
    have hlimit : limit (Ty.bits .int32) = (Nat.pow 2 31 : Nat) := rfl
    rw [hlimit] at hv
    have ih := natAbs_total_le h.2
    rw [total_cons, List.length_cons, Nat.mul_succ]
    omega

/-- As many 32-bit integers as are ever added do not come near the bounds of 64 bits. -/
theorem sumsFit_of_int32 (hrows : ∀ v ∈ rows, Ty.int32.admits v)
    (hlen : rows.length < Nat.pow 2 31) : sumsFit 0 rows := by
  refine sumsFit_zero.mpr fun k => fits_iff.mpr ?_
  have hfirst : ∀ v ∈ rows.take k, Ty.int32.admits v := fun v hv =>
    hrows v (List.mem_of_mem_take hv)
  have hbound : (total (rows.take k)).natAbs ≤ Nat.pow 2 31 * Nat.pow 2 31 := calc
    _ ≤ Nat.pow 2 31 * (rows.take k).length := natAbs_total_le hfirst
    _ ≤ Nat.pow 2 31 * Nat.pow 2 31 :=
      Nat.mul_le_mul_left _ ((List.length_take_le' ..).trans hlen.le)
  have hlimit : limit 64 = 2 * (Nat.pow 2 31 * Nat.pow 2 31 : Nat) := rfl
  have hpos : 0 < Nat.pow 2 31 * Nat.pow 2 31 := by decide
  rw [hlimit]
  generalize Nat.pow 2 31 * Nat.pow 2 31 = half at *
  omega

/-! ### Sums of either width -/

theorem sumAs_int32 (hrows : ∀ v ∈ rows, Ty.int32.admits v) (hlen : rows.length < Nat.pow 2 31) :
    sumAs .int32 rows = if fits 32 (total rows) then .ok (Ty.int32.wrap (total rows))
      else .error (.coercionFailure "Int64" "Int32") :=
  if_pos (sumsFit_of_int32 hrows hlen)

theorem sumAs_int64 : sumAs .int64 rows =
    if sumsFit 0 rows then .ok (Ty.int64.wrap (total rows))
    else .error (.coercionFailure "sum" "Int64") := by
  rw [sumAs]
  split
  · next hsums => exact if_pos (fits_total hsums)
  · rfl

/-- What is given back is the sum of all rows. -/
theorem sumAs_eq_ok {v : Value} (h : sumAs ty rows = .ok v) : v = ty.wrap (total rows) := by
  rw [sumAs] at h
  split at h
  · split at h
    · exact (Except.ok.inj h).symm
    · cases h
  · cases h

theorem toInt_int32 {n : Int} (h : fits 32 n) : (Int32.ofInt n).toInt = n := by
  rw [Int32.toInt_ofInt]
  exact @Ty.hold_of_fits .int32 n rfl h

theorem toInt_int64 {n : Int} (h : fits 64 n) : (Int64.ofInt n).toInt = n := by
  rw [Int64.toInt_ofInt]
  exact @Ty.hold_of_fits .int64 n rfl h

/-! ### Adding up rows -/

namespace Tally

/-- Adding an integer to a sum ends in an error when 64 bits do not hold the result. -/
theorem add_sum (hty : ty.isInteger) {v : Value} (hv : ty.admits v) (t : Tally) {n : Nat}
    (ht : t.count = n) (hn : n + 1 < Nat.pow 2 63) : t.add .sum ty v =
      if fits 64 (t.integers + v.whole) then .ok ⟨↑(n + 1), t.integers + v.whole, t.floats⟩
      else .error (.coercionFailure "sum" "Int64") := by
  obtain ⟨-, m, hread, hm⟩ := Ty.whole_fits hty hv
  have hcount : within64 "count" (t.count + 1) = .ok ↑(n + 1) := by
    rw [ht, ← Int.natCast_succ, within64, fits_natCast, decide_eq_true hn, if_pos rfl]
  rw [add, hcount, Outcome.ok_bind, if_neg (by decide), if_pos hty, hread, ← hm]
  simp only [within64]
  split <;> rfl

/-- The sum of integers is given back in their type. -/
theorem sum_eq (hty : ty.isInteger) {t : Tally} (hfits : fits 64 t.integers) : t.sum ty =
    if fits ty.bits t.integers then .ok (ty.wrap t.integers)
    else .error (.coercionFailure "Int64" ty.name) := by
  rw [sum, if_pos hty]
  rcases Ty.isInteger_iff.mp hty with rfl | rfl
  · show (if (Int64.ofInt t.integers).toInt32.toInt64 = Int64.ofInt t.integers then
        Except.ok (Value.int32 (Int64.ofInt t.integers).toInt32) else .error _).mapError
      QueryError.ofValue = if fits 32 t.integers then _ else _
    by_cases h : fits 32 t.integers
    · rw [if_pos ((toInt64_toInt32_ofInt hfits).mpr h), if_pos h, Int64.toInt32_ofInt]
      rfl
    · rw [if_neg (mt (toInt64_toInt32_ofInt hfits).mp h), if_neg h]
      rfl
  · exact (if_pos hfits).symm

end Tally

/-- Adding rows one by one ends in an error as soon as 64 bits do not hold a sum. -/
theorem Rows.foldAll_sum (hty : ty.isInteger) : ∀ (rows : List Value) (t : Tally) (n : Nat),
    (∀ v ∈ rows, ty.admits v) → t.count = n → n + rows.length < Nat.pow 2 63 →
    (foldAll (Tally.add .sum ty) t (rows.map .ok)).outcome =
      if sumsFit t.integers rows then
        .ok ⟨↑(n + rows.length), t.integers + total rows, t.floats⟩
      else .error (.coercionFailure "sum" "Int64")
  | [], t, n, _, ht, _ => by
    obtain ⟨count, integers, floats⟩ := t
    obtain rfl : count = n := ht
    rw [sumsFit, if_pos rfl, total_nil, Int.add_zero]
    rfl
  | v :: rows, t, n, hrows, ht, hn => by
    rw [List.forall_mem_cons] at hrows
    rw [List.length_cons, ← Nat.add_assoc, Nat.add_right_comm] at hn
    rw [List.map_cons, foldAll, Tally.add_sum hty hrows.1 t ht (by omega), sumsFit]
    by_cases hv : fits 64 (t.integers + v.whole)
    · rw [if_pos hv, hv, Bool.true_and]
      have ih := foldAll_sum hty rows ⟨↑(n + 1), t.integers + v.whole, t.floats⟩ (n + 1)
        hrows.2 rfl hn
      refine Eq.trans ?_ (ih.trans ?_)
      · rfl
      · rw [total_cons, List.length_cons, Int.add_assoc, Nat.add_assoc, Nat.add_comm 1]
    · rw [if_neg hv, Bool.eq_false_iff.mpr hv, Bool.false_and, if_neg Bool.false_ne_true]

namespace Memory

/-- A sum is answered from the rows of a query, in the type of the rows. -/
theorem aggregate_sum (hempty : q.isEmpty = false) (h : q.backend.run q = .ok rows)
    (hscans : q.backend.allowsFullScans) (hty : q.elementTy.isInteger)
    (hrows : ∀ v ∈ rows, q.elementTy.admits v) (hlen : rows.length < Nat.pow 2 63) :
    (Memory.backend.aggregate q .sum).outcome.bind (coerceResult q.elementTy) =
      sumAs q.elementTy rows := by
  have hread : Memory.producer.readAggregate q .sum =
      (Memory.producer.read q (Rows.foldAll (Tally.add .sum q.elementTy) .zero)).andThen
        (Tally.finish .sum q.elementTy) := if_pos hscans
  have hfold := Rows.foldAll_sum hty rows .zero 0 hrows rfl (by rwa [Nat.zero_add])
  have hzero : Tally.zero.integers = 0 := rfl
  rw [Nat.zero_add, hzero, Int.zero_add] at hfold
  rw [aggregate_eq hempty (by decide) (by decide), hread, Run.andThen, read_outcome, h]
  show ((Rows.foldAll _ _ _).outcome.bind _).bind _ = _
  rw [hfold, sumAs]
  by_cases hsums : sumsFit 0 rows
  · rw [if_pos hsums, if_pos hsums]
    show (Tally.sum _ _).bind _ = _
    rw [Tally.sum_eq hty]
    · split
      · exact coerceResult_eq (Ty.admits_of_admitsDeep (Ty.admitsDeep_wrap hty _))
      · rfl
    · exact fits_total hsums
  · rw [if_neg hsums, if_neg hsums]
    rfl

end Memory

/-! ### Sums of queries -/

namespace Query

variable {f : Option Lambda}

/-- Whether a query may be scanned for a sum, and its rows, or what a selector makes of them,
are integers of a type. -/
structure AddsUp (q : Query Memory σ) (f : Option Lambda) (ty : Ty) (rows : List Value) :
    Prop where
  scans : q.backend.allowsFullScans
  integer : ty.isInteger
  shows : ∃ r, q.selectBy f = .ok r ∧ (r.of q).elementTy = ty ∧
    ((r.of q).toValues Memory.backend).outcome = .ok rows
  admits : ∀ v ∈ rows, ty.admits v
  few : rows.length < Nat.pow 2 31

/-- A backend's own rows may be added up. -/
theorem addsUp_rows {m : Memory} (hscans : m.allowsFullScans) (hty : m.origin.isInteger)
    (hrows : ∀ v ∈ m.rows, m.origin.admits v) (hlen : m.rows.length < Nat.pow 2 31) :
    (m.query : Query Memory σ).AddsUp none m.origin m.rows := by
  have hfloat : m.origin.isFloatFree := by
    rcases Ty.isInteger_iff.mp hty with h | h <;> rw [h] <;> rfl
  have hm : m.IsPlain := ⟨fun v hv => Ty.admitsDeep_of_integer hty (hrows v hv), hfloat⟩
  have hyields : Yields (fun _ => True) m (m.query : Query Memory σ) m.rows m.rows m.rows :=
    .init hm
  have hlist := Memory.toValues_eq rfl (hyields.run_eq hfloat)
  exact ⟨hscans, hty, ⟨.unchanged, rfl, rfl, hlist⟩, hrows, hlen⟩

theorem backend_of_selectBy {r : Revision (Query Memory σ)} (h : q.selectBy f = .ok r) :
    (r.of q).backend = q.backend := by
  cases f with
  | none =>
    obtain rfl := Except.ok.inj h
    rfl
  | some f => exact (step_frame (s := .select f) h).1

/-- The sum is that of the rows, or of what the selector makes of them. -/
theorem AddsUp.execute_eq (h : q.AddsUp f ty rows) :
    (q.execute Memory.backend (.sum f)).outcome = sumAs ty rows := by
  obtain ⟨r, hr, rfl, hrows⟩ := h.shows
  have hrewrite : q.rewrite (.sum f) = .ok (q.requestFor (.sum f) r) :=
    rewrite_eq_ok.mpr ⟨r, hr, fun _ => Ty.isNumeric_of_isInteger h.integer, rfl⟩
  rw [execute_eq hrewrite]
  rw [Memory.toValues_eq_ok] at hrows
  split at hrows
  · next hempty =>
    subst hrows
    refine (if_pos hempty).trans ?_
    exact (sumAs_nil h.integer).symm
  · next hempty =>
    refine (if_neg hempty).trans ?_
    refine Memory.aggregate_sum (Bool.eq_false_iff.mpr hempty) hrows ?_ h.integer h.admits ?_
    · show (r.of q).backend.allowsFullScans
      rw [backend_of_selectBy hr]
      exact h.scans
    · exact h.few.trans (by decide)

/-- The sum of 32-bit integers is exact: it is given back if it fits and refused if it does
not, in whatever order the rows arrive. So is that of 64-bit integers if the sum of any first
rows fits. If one does not, the sum is refused, as it is in every order if the sum of all rows
does not fit, and no two orders give different sums. -/
theorem execute_sum (h : q.AddsUp f ty rows) :
    let answer := (q.execute Memory.backend (.sum f)).outcome
    (ty = .int32 →
      (fits 32 (total rows) → ∃ n : Int32, n.toInt = total rows ∧ answer = .ok (.int32 n)) ∧
      (¬fits 32 (total rows) → answer = .error (.coercionFailure "Int64" "Int32")) ∧
      ∀ (q' : Query Memory σ) (f' : Option Lambda) (rows' : List Value),
        q'.AddsUp f' .int32 rows' → rows'.Perm rows →
        (q'.execute Memory.backend (.sum f')).outcome = answer) ∧
    (ty = .int64 →
      ((∀ k, fits 64 (total (rows.take k))) →
        ∃ n : Int64, n.toInt = total rows ∧ answer = .ok (.int64 n)) ∧
      ((¬∀ k, fits 64 (total (rows.take k))) →
        answer = .error (.coercionFailure "sum" "Int64")) ∧
      ∀ (q' : Query Memory σ) (f' : Option Lambda) (rows' : List Value),
        q'.AddsUp f' .int64 rows' → rows'.Perm rows →
        let answer' := (q'.execute Memory.backend (.sum f')).outcome
        (¬fits 64 (total rows) → answer' = .error (.coercionFailure "sum" "Int64")) ∧
        ∀ v v', answer = .ok v → answer' = .ok v' → v = v') := by
  intro answer
  have hanswer : answer = sumAs ty rows := h.execute_eq
  constructor
  · rintro rfl
    have hsum : answer = _ := hanswer.trans (sumAs_int32 h.admits h.few)
    refine ⟨fun hfits => ?_, fun hfits => ?_, fun q' f' rows' h' hperm => ?_⟩
    · rw [if_pos hfits] at hsum
      exact ⟨_, toInt_int32 hfits, hsum⟩
    · rwa [if_neg hfits] at hsum
    · rw [h'.execute_eq, hsum, sumAs_int32 h'.admits h'.few, total_perm hperm]
  · rintro rfl
    have hsum : answer = _ := hanswer.trans sumAs_int64
    refine ⟨fun hsums => ?_, fun hsums => ?_, fun q' f' rows' h' hperm => ⟨fun hfits => ?_, ?_⟩⟩
    · rw [← sumsFit_zero] at hsums
      rw [if_pos hsums] at hsum
      exact ⟨_, toInt_int64 (fits_total hsums), hsum⟩
    · rw [← sumsFit_zero] at hsums
      rwa [if_neg hsums] at hsum
    · rw [← total_perm hperm] at hfits
      rw [h'.execute_eq, sumAs_int64, if_neg (mt fits_total hfits)]
    · intro v v' hv hv'
      rw [hanswer] at hv
      rw [h'.execute_eq] at hv'
      rw [sumAs_eq_ok hv, sumAs_eq_ok hv', total_perm hperm]

/-- Numbers whose sum fits 32 bits although that of the first two does not. -/
theorem execute_sum_negated :
    let x : Param := ⟨0, "x", .int32⟩
    let m : Memory := ⟨"numbers", .int32, [.int32 2147483647, .int32 2, .int32 (-3)], true, 0⟩
    let negated : Lambda := ⟨x, .unary .negate (.param x) .int32⟩
    let rows : List Value := [.int32 (-2147483647), .int32 (-2), .int32 3]
    let q : Query Memory Unit := m.query
    q.AddsUp (some negated) .int32 rows ∧ fits 32 (total (rows.take 2)) = false ∧
      ∃ n : Int32, n.toInt = total rows ∧
        (q.execute Memory.backend (.sum (some negated))).outcome = .ok (.int32 n) := by
  intro x m negated rows q
  have h : q.AddsUp (some negated) .int32 rows := by
    refine ⟨rfl, rfl, ⟨_, rfl, rfl, ?_⟩, ?_, ?_⟩
    · cbv
    · simp [rows, Ty.admits]
    · decide
  exact ⟨h, by decide, ((execute_sum h).1 rfl).1 (by decide)⟩

/-- A sum of 64-bit integers may be refused although it fits, and given back when the rows
arrive in another order. -/
theorem execute_ne_sum :
    let rows : List Value := [.int64 9223372036854775807, .int64 1, .int64 (-1)]
    let rows' : List Value := [.int64 9223372036854775807, .int64 (-1), .int64 1]
    let m : Memory := ⟨"numbers", .int64, rows, true, 0⟩
    let m' : Memory := ⟨"numbers", .int64, rows', true, 0⟩
    let q : Query Memory Unit := m.query
    let q' : Query Memory Unit := m'.query
    q.AddsUp none .int64 rows ∧ q'.AddsUp none .int64 rows' ∧ rows'.Perm rows ∧
      fits 64 (total rows) ∧
      (q.execute Memory.backend (.sum none)).outcome =
        .error (.coercionFailure "sum" "Int64") ∧
      (q'.execute Memory.backend (.sum none)).outcome = .ok (.int64 9223372036854775807) := by
  intro rows rows' m m' q q'
  have h : q.AddsUp none .int64 rows :=
    addsUp_rows rfl rfl (by simp [m, rows, Ty.admits]) (by decide)
  have h' : q'.AddsUp none .int64 rows' :=
    addsUp_rows rfl rfl (by simp [m', rows', Ty.admits]) (by decide)
  refine ⟨h, h', (List.Perm.swap _ _ _).cons _, by decide, ?_, ?_⟩
  · rw [h.execute_eq, sumAs, if_neg (by decide)]
  · rw [h'.execute_eq, sumAs, if_pos (by decide), if_pos (by decide)]
    rfl

end Query
end SeqQuery
