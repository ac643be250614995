/-
# Overflows that regrouping hides

A checked sum or product fails where its result cannot be held. Regrouping takes
`c op (x op d)` to `x op (c op d)`, which has the value of the former if that has one
(`Arith.apply_regroup`), and which fails where `c op (x op d)` fails, unless it is `x op d`
that overflows: then the constant `c` may bring the result back (`Arith.Hides`).

Two constants decide whether there is an `x` for which this happens (`Arith.mayHide_iff`).
Summands have to be of opposite signs. A factor `c` has to be 0, so that every product is,
or -1, so that the one product that is too large by one becomes the least integer.

Key definitions: `Arith.Hides`, `Arith.hidesWithin`, `Arith.mayHide`.
Key theorems: `Arith.hidesWithin_iff`, `Arith.mayHide_iff`, `Arith.apply_regroup_error`.
-/
import Mathlib.Tactic.Linarith
import SeqQuery.Proofs.Wrapping

namespace SeqQuery

/-! ### Bounds -/

/-- One more than the largest integer that can be held in a number of bits. -/
def limit (bits : Nat) : Int :=
  Nat.pow 2 (bits - 1)

theorem limit_pos (bits : Nat) : 0 < limit bits :=
  Int.natCast_pos.mpr (Nat.two_pow_pos _)

theorem fits_iff {bits : Nat} {n : Int} : fits bits n ↔ -limit bits ≤ n ∧ n < limit bits := by
  simp only [fits, limit, Bool.and_eq_true, decide_eq_true_eq]
  exact and_comm

theorem not_fits_iff {bits : Nat} {n : Int} :
    fits bits n = false ↔ n < -limit bits ∨ limit bits ≤ n := by
  rw [Bool.eq_false_iff, Ne, fits_iff]
  omega

/-- A stored integer can be held. -/
theorem Ty.exists_fits {ty : Ty} {v : Value} (hty : ty.isInteger) (hv : ty.admitsDeep v) :
    ∃ n, fits ty.bits n ∧ v = ty.wrap n := by
  rcases Ty.isInteger_iff.mp hty with rfl | rfl
  · obtain ⟨n, rfl⟩ := admitsDeep_int32.mp hv
    have hlow := n.le_toInt
    have hhigh := n.toInt_lt
    refine ⟨n.toInt, fits_iff.mpr ⟨hlow, hhigh⟩, by simp [wrap]⟩
  · obtain ⟨n, rfl⟩ := admitsDeep_int64.mp hv
    have hlow := n.le_toInt
    have hhigh := n.toInt_lt
    refine ⟨n.toInt, fits_iff.mpr ⟨hlow, hhigh⟩, by simp [wrap]⟩

theorem Ty.admitsDeep_wrap {ty : Ty} (hty : ty.isInteger) (n : Int) :
    ty.admitsDeep (ty.wrap n) := by
  rcases Ty.isInteger_iff.mp hty with rfl | rfl <;> rfl

namespace Arith

variable {op : Arith} {bits : Nat} {c d x : Int}

/-! ### The integers for which an overflow is hidden -/

/-- Whether two integers hide an overflow of some third one between them. -/
def hidesWithin (op : Arith) (bits : Nat) (c d : Int) : Bool :=
  match op with
  | .addChecked => decide (c * d < 0)
  | .mulChecked =>
    decide (d ≠ 0 ∧ d ≠ 1 ∧ (c = 0 ∨ c = -1 ∧ d ∣ limit bits ∧ -d ≠ limit bits))
  | _ => false

theorem addition_hides (hc : fits bits c) (hd : fits bits d) :
    c * d < 0 ↔ fits bits (c + d) ∧
      ∃ x, fits bits x ∧ fits bits (x + d) = false ∧ fits bits (x + (c + d)) := by
  simp only [fits_iff, not_fits_iff] at *
  constructor
  · intro hsigns
    rcases mul_neg_iff.mp hsigns with ⟨hcpos, hdneg⟩ | ⟨hcneg, hdpos⟩
    · exact ⟨by omega, -limit bits - d - 1, by omega, by omega, by omega⟩
    · exact ⟨by omega, limit bits - d, by omega, by omega, by omega⟩
  · rintro ⟨-, x, hx, hxd, hxcd⟩
    rcases hxd with hlow | hhigh
    · exact mul_neg_of_pos_of_neg (by omega) (by omega)
    · exact mul_neg_of_neg_of_pos (by omega) (by omega)

/-- A factor that hides an overflow is 0 or -1. -/
theorem factor_of_fits {p : Int} (hp : fits bits p = false) (hcp : fits bits (c * p)) :
    c = 0 ∨ c = -1 ∧ p = limit bits := by
  rw [not_fits_iff] at hp
  rw [fits_iff] at hcp
  have hpos := limit_pos bits
  have hc : c ≤ -2 ∨ c = -1 ∨ c = 0 ∨ 1 ≤ c := by omega
  rcases hc with hc | rfl | rfl | hc
  · rcases hp with hp | hp <;> nlinarith
  · exact .inr ⟨rfl, by omega⟩
  · exact .inl rfl
  · rcases hp with hp | hp <;> nlinarith

theorem multiplication_hides (hd : fits bits d) :
    (d ≠ 0 ∧ d ≠ 1 ∧ (c = 0 ∨ c = -1 ∧ d ∣ limit bits ∧ -d ≠ limit bits)) ↔ fits bits (c * d) ∧
      ∃ x, fits bits x ∧ fits bits (x * d) = false ∧ fits bits (x * (c * d)) := by
  have hpos := limit_pos bits
  have hdfits := fits_iff.mp hd
  constructor
  · rintro ⟨hzero, hone, rfl | ⟨rfl, ⟨k, hk⟩, hneg⟩⟩
    · have hfits : fits bits 0 := fits_iff.mpr (by omega)
      have hproduct : fits bits (-limit bits * d) = false := by
        rw [not_fits_iff]
        rcases lt_or_gt_of_ne hzero with hd | hd
        · exact .inr (by nlinarith)
        · exact .inl (by nlinarith [show 2 ≤ d by omega])
      refine ⟨by simpa using hfits, -limit bits, fits_iff.mpr (by omega), hproduct, ?_⟩
      simpa using hfits
    · -- `k * d` is the limit itself
      have hkd : k * d = limit bits := by rw [hk, Int.mul_comm]
      have hdvd : k ∣ limit bits := ⟨d, hkd.symm⟩
      have hhigh : k ≤ limit bits := Int.le_of_dvd hpos hdvd
      have hlow : -k ≤ limit bits := Int.le_of_dvd hpos (Int.neg_dvd.mpr hdvd)
      have hne : k ≠ limit bits := by
        rintro rfl
        exact hone (Int.eq_one_of_mul_eq_self_right hpos.ne' hkd)
      have hproduct : k * (-1 * d) = -limit bits := by
        rw [Int.neg_one_mul, Int.mul_neg, hkd]
      refine ⟨fits_iff.mpr (by omega), k, fits_iff.mpr (by omega), ?_, ?_⟩
      · rw [hkd, not_fits_iff]
        exact .inr le_rfl
      · rw [hproduct, fits_iff]
        omega
  · rintro ⟨hcd, x, hx, hxd, hxcd⟩
    rw [Int.mul_left_comm] at hxcd
    refine ⟨?_, ?_, ?_⟩
    · rintro rfl
      rw [Int.mul_zero, not_fits_iff] at hxd
      omega
    · rintro rfl
      rw [Int.mul_one, hx] at hxd
      cases hxd
    · rcases factor_of_fits hxd hxcd with hc | ⟨rfl, hlimit⟩
      · exact .inl hc
      · refine .inr ⟨rfl, ⟨x, by rw [← hlimit, Int.mul_comm]⟩, fun hneg => ?_⟩
        rw [Int.neg_one_mul, hneg, fits_iff] at hcd
        omega

/-- Two integers hide an overflow if and only if there is a third one for which their sum
or product can be held although the inner result cannot. -/
theorem hidesWithin_iff (hc : fits bits c) (hd : fits bits d) : op.hidesWithin bits c d ↔
    op.isChecked ∧ fits bits (op.exact c d) ∧ ∃ x, fits bits x ∧
      fits bits (op.exact x d) = false ∧ fits bits (op.exact x (op.exact c d)) := by
  cases op with
  | addChecked =>
    rw [hidesWithin, decide_eq_true_iff, addition_hides hc hd]
    simp [isChecked, exact]
  | mulChecked =>
    rw [hidesWithin, decide_eq_true_iff, multiplication_hides hd]
    simp [isChecked, exact]
  | _ => simp [hidesWithin, isChecked]

/-! ### The constants for which an overflow is hidden -/

/-- Regrouping `c op (x op d)` hides an overflow: the inner operation overflows, and
`x op (c op d)` has a value. -/
def Hides (op : Arith) (c d x : Value) : Prop :=
  op.apply x d = .error (.overflow op.name) ∧
    ∃ cd u, op.apply c d = .ok cd ∧ op.apply x cd = .ok u

/-- Whether two constants hide an overflow of some operand between them. -/
def mayHide (op : Arith) : Value → Value → Bool
  | .int32 c, .int32 d => op.hidesWithin 32 c.toInt d.toInt
  | .int64 c, .int64 d => op.hidesWithin 64 c.toInt d.toInt
  | _, _ => false

section Stored

variable {ty : Ty} {a b : Int} {u : Value} {err : ExprError}

theorem onInts_eq_error (hop : (BinaryOp.arith op).isAssociative) :
    op.onInts bits a b = .error err ↔
      (op.isChecked ∧ fits bits (op.exact a b) = false) ∧ .overflow op.name = err := by
  cases op <;> simp only [BinaryOp.isAssociative, Bool.false_eq_true] at hop
  case add | mul => simp [onInts, isChecked]
  case addChecked | mulChecked =>
    rw [onInts, inBits]
    split <;> simp_all [isChecked, exact]

theorem apply_eq_ok (hop : (BinaryOp.arith op).isAssociative) (hty : ty.isInteger)
    (ha : fits ty.bits a) (hb : fits ty.bits b) : op.apply (ty.wrap a) (ty.wrap b) = .ok u ↔
      (op.isChecked → fits ty.bits (op.exact a b)) ∧ ty.wrap (op.exact a b) = u := by
  rw [apply_wrap_eq_ok hop hty, Ty.hold_of_fits hty ha, Ty.hold_of_fits hty hb]

/-- The only failure of a sum or product is its own overflow. -/
theorem apply_eq_error (hop : (BinaryOp.arith op).isAssociative) (hty : ty.isInteger)
    (ha : fits ty.bits a) (hb : fits ty.bits b) : op.apply (ty.wrap a) (ty.wrap b) = .error err ↔
      (op.isChecked ∧ fits ty.bits (op.exact a b) = false) ∧ .overflow op.name = err := by
  rw [apply_wrap op hty, Ty.hold_of_fits hty ha, Ty.hold_of_fits hty hb, ← onInts_eq_error hop]
  cases op.onInts ty.bits a b <;> simp [Except.map]

theorem mayHide_wrap (hty : ty.isInteger) (hc : fits ty.bits c) (hd : fits ty.bits d) :
    op.mayHide (ty.wrap c) (ty.wrap d) = op.hidesWithin ty.bits c d := by
  have hwrap : op.mayHide (ty.wrap c) (ty.wrap d) =
      op.hidesWithin ty.bits (ty.hold c) (ty.hold d) := by
    rcases Ty.isInteger_iff.mp hty with rfl | rfl
    · simp only [Ty.wrap, mayHide, Int32.toInt_ofInt]
      rfl
    · simp only [Ty.wrap, mayHide, Int64.toInt_ofInt]
      rfl
  rw [hwrap, Ty.hold_of_fits hty hc, Ty.hold_of_fits hty hd]

theorem hides_wrap (hop : (BinaryOp.arith op).isAssociative) (hty : ty.isInteger)
    (hc : fits ty.bits c) (hd : fits ty.bits d) (hx : fits ty.bits x) :
    op.Hides (ty.wrap c) (ty.wrap d) (ty.wrap x) ↔ op.isChecked ∧ fits ty.bits (op.exact c d) ∧
      fits ty.bits (op.exact x d) = false ∧ fits ty.bits (op.exact x (op.exact c d)) := by
  rw [Hides, apply_eq_error hop hty hx hd]
  constructor
  · rintro ⟨⟨⟨hchecked, hxd⟩, -⟩, cd, u, hcd, hu⟩
    obtain ⟨hfits, rfl⟩ := (apply_eq_ok hop hty hc hd).mp hcd
    obtain ⟨hxcd, -⟩ := (apply_eq_ok hop hty hx (hfits hchecked)).mp hu
    exact ⟨hchecked, hfits hchecked, hxd, hxcd hchecked⟩
  · rintro ⟨hchecked, hcd, hxd, hxcd⟩
    exact ⟨⟨⟨hchecked, hxd⟩, rfl⟩, _, _, (apply_eq_ok hop hty hc hd).mpr ⟨fun _ => hcd, rfl⟩,
      (apply_eq_ok hop hty hx hcd).mpr ⟨fun _ => hxcd, rfl⟩⟩

end Stored

section Regrouping

variable {ty : Ty} {c d x cd : Value} {err : ExprError}

/-- Two constants hide an overflow of some operand if and only if they may. -/
theorem mayHide_iff (hop : (BinaryOp.arith op).isAssociative) (hty : ty.isInteger)
    (hc : ty.admitsDeep c) (hd : ty.admitsDeep d) :
    op.mayHide c d ↔ ∃ x, ty.admitsDeep x ∧ op.Hides c d x := by
  obtain ⟨a, ha, rfl⟩ := Ty.exists_fits hty hc
  obtain ⟨b, hb, rfl⟩ := Ty.exists_fits hty hd
  rw [mayHide_wrap hty ha hb, hidesWithin_iff ha hb]
  constructor
  · rintro ⟨hchecked, hab, x, hx, hxb, hxab⟩
    have hhides := (hides_wrap hop hty ha hb hx).mpr ⟨hchecked, hab, hxb, hxab⟩
    exact ⟨ty.wrap x, Ty.admitsDeep_wrap hty x, hhides⟩
  · rintro ⟨x, hx, hhides⟩
    obtain ⟨n, hn, rfl⟩ := Ty.exists_fits hty hx
    obtain ⟨hchecked, hab, hnb, hnab⟩ := (hides_wrap hop hty ha hb hn).mp hhides
    exact ⟨hchecked, hab, n, hn, hnb, hnab⟩

theorem apply_comm_of_deep (hop : (BinaryOp.arith op).isAssociative) (hty : ty.isInteger)
    (hc : ty.admitsDeep c) (hx : ty.admitsDeep x) : op.apply c x = op.apply x c := by
  obtain ⟨a, ha, rfl⟩ := Ty.exists_fits hty hc
  obtain ⟨b, hb, rfl⟩ := Ty.exists_fits hty hx
  cases h : op.apply (ty.wrap b) (ty.wrap a) with
  | ok u => exact apply_comm hop hty hx h
  | error err =>
    rw [apply_eq_error hop hty hb ha, exact_comm] at h
    exact (apply_eq_error hop hty ha hb).mpr h

/-- Where `c op (x op d)` fails, `x op (c op d)` fails in the same way, unless an overflow of
`x op d` is hidden. -/
theorem apply_regroup_error (hop : (BinaryOp.arith op).isAssociative) (hty : ty.isInteger)
    (hc : ty.admitsDeep c) (hx : ty.admitsDeep x) (hcd : op.apply c d = .ok cd)
    (h : op.apply x d >>= op.apply c = .error err) :
    op.apply x cd = .error err ∨ err = .overflow op.name ∧ op.Hides c d x := by
  have hnum := Ty.isNumeric_of_isInteger hty
  obtain ⟨-, hd, hcdty⟩ := admitsDeep_of_apply hnum hcd (.inl hc)
  have hoverflow : ∀ {v w : Value} {e : ExprError}, ty.admitsDeep v → ty.admitsDeep w →
      op.apply v w = .error e → e = .overflow op.name := by
    intro v w e hv hw he
    obtain ⟨a, ha, rfl⟩ := Ty.exists_fits hty hv
    obtain ⟨b, hb, rfl⟩ := Ty.exists_fits hty hw
    exact ((apply_eq_error hop hty ha hb).mp he).2.symm
  cases hxd : op.apply x d with
  | ok xd =>
    obtain ⟨-, -, hxdty⟩ := admitsDeep_of_apply hnum hxd (.inl hx)
    rw [hxd] at h
    obtain rfl := hoverflow hc hxdty h
    cases hu : op.apply x cd with
    | ok u =>
      -- what the regrouped chain can hold the chain could hold
      rw [Outcome.ok_bind, apply_regroup hop hty hx hxd hcd hu] at h
      cases h
    | error e => exact .inl (congrArg Except.error (hoverflow hx hcdty hu))
  | error e =>
    rw [hxd] at h
    obtain rfl : e = err := Except.error.inj h
    obtain rfl := hoverflow hx hd hxd
    cases hu : op.apply x cd with
    | ok u => exact .inr ⟨rfl, hxd, cd, u, hcd, hu⟩
    | error e => exact .inl (congrArg Except.error (hoverflow hx hcdty hu))

end Regrouping

end Arith
end SeqQuery
