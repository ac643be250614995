/-
# Sums and products of integers that wrap

An integer of either width stands for a mathematical integer up to a power of two, and
`Ty.wrap` gives the integer of a type that one stands for. Sums and products are taken
on the mathematical side, so those that wrap may be taken in any order. A checked one
fails unless the result can be held; if `x + d`, `c + (x + d)` and `c + d` can all be held
then so can `x + (c + d)`, because it is the second of the three. That is all that
regrouping needs (`Arith.apply_regroup`).

Key definitions: `Ty.bits`, `Ty.wrap`, `Arith.exact`, `Arith.isChecked`.
Key theorems: `Arith.apply_wrap`, `Arith.onInts_eq_ok`, `Arith.apply_comm`,
`Arith.apply_regroup`.
-/
import Mathlib.Algebra.Group.Nat.Defs
import SeqQuery.Proofs.Checked

namespace SeqQuery

variable {ty : Ty}

theorem Ty.isNumeric_of_isInteger (h : ty.isInteger) : ty.isNumeric := by
  rcases Ty.isInteger_iff.mp h with rfl | rfl <;> rfl

/-- A number shows its type. -/
theorem Ty.eq_of_numeric {s t : Ty} (hs : s.isNumeric) (ht : t.isNumeric) {v : Value}
    (hv : s.admitsDeep v) (hw : t.admitsDeep v) : s = t := by
  cases v <;> cases s <;> simp only [isNumeric, admitsDeep, isNullable, Bool.false_eq_true] at hs hv <;>
    cases t <;> simp only [isNumeric, admitsDeep, Bool.false_eq_true] at ht hw <;> rfl

theorem Value.admitsDeep_ty {v : Value} (h : v.ty.isNumeric) : v.ty.admitsDeep v := by
  cases v with
  | list items => cases items <;> cases h
  | record r values => cases h
  | _ => rfl

/-- The width of an integer type. -/
def Ty.bits : Ty → Nat
  | .int32 => 32
  | _ => 64

/-- The integer of a type that a mathematical integer becomes when it is stored. -/
def Ty.wrap : Ty → Int → Value
  | .int32, n => .int32 (Int32.ofInt n)
  | _, n => .int64 (Int64.ofInt n)

/-- What a stored integer is read as. -/
abbrev Ty.hold (ty : Ty) (n : Int) : Int :=
  n.bmod (2 ^ ty.bits)

theorem Ty.wrap_eq_wrap {m n : Int} (hty : ty.isInteger) :
    ty.wrap m = ty.wrap n ↔ ty.hold m = ty.hold n := by
  rcases Ty.isInteger_iff.mp hty with rfl | rfl
  · simp only [wrap, Value.int32.injEq, ← Int32.toInt_inj, Int32.toInt_ofInt]
    rfl
  · simp only [wrap, Value.int64.injEq, ← Int64.toInt_inj, Int64.toInt_ofInt]
    rfl

theorem Ty.exists_wrap {v : Value} (hty : ty.isInteger) (hv : ty.admitsDeep v) :
    ∃ n, v = ty.wrap n := by
  rcases Ty.isInteger_iff.mp hty with rfl | rfl
  · obtain ⟨n, rfl⟩ := admitsDeep_int32.mp hv
    exact ⟨n.toInt, by simp [wrap]⟩
  · obtain ⟨n, rfl⟩ := admitsDeep_int64.mp hv
    exact ⟨n.toInt, by simp [wrap]⟩

/-- What can be held is read as it was stored. -/
theorem Ty.hold_of_fits {n : Int} (hty : ty.isInteger) (h : fits ty.bits n) : ty.hold n = n := by
  simp only [fits, Bool.and_eq_true, decide_eq_true_eq] at h
  rcases Ty.isInteger_iff.mp hty with rfl | rfl
  · have hbound : Nat.pow 2 (bits .int32 - 1) = 2147483648 := rfl
    rw [hbound] at h
    exact Int.bmod_eq_of_le (by simp [bits]; omega) (by simp [bits]; omega)
  · have hbound : Nat.pow 2 (bits .int64 - 1) = 9223372036854775808 := rfl
    rw [hbound] at h
    exact Int.bmod_eq_of_le (by simp [bits]; omega) (by simp [bits]; omega)

namespace Arith

variable {op : Arith}

/-- Arithmetic on stored integers is done on what they are read as. -/
theorem apply_wrap (op : Arith) (hty : ty.isInteger) (a b : Int) :
    op.apply (ty.wrap a) (ty.wrap b) =
      (op.onInts ty.bits (ty.hold a) (ty.hold b)).map ty.wrap := by
  rcases Ty.isInteger_iff.mp hty with rfl | rfl
  · simp only [Ty.wrap, Arith.apply, Int32.toInt_ofInt]
    rfl
  · simp only [Ty.wrap, Arith.apply, Int64.toInt_ofInt]
    rfl

/-- The sum or product before it is stored. -/
def exact : Arith → Int → Int → Int
  | .mul | .mulChecked => (· * ·)
  | _ => (· + ·)

/-- Whether an operator fails where the result cannot be held. -/
def isChecked : Arith → Bool
  | .addChecked | .mulChecked => true
  | _ => false

theorem onInts_eq_ok (hop : (BinaryOp.arith op).isAssociative) {bits : Nat} {a b n : Int} :
    op.onInts bits a b = .ok n ↔
      (op.isChecked → fits bits (op.exact a b)) ∧ op.exact a b = n := by
  cases op <;> simp only [BinaryOp.isAssociative, Bool.false_eq_true] at hop
  case add | mul => simp [onInts, isChecked, exact]
  case addChecked | mulChecked =>
    rw [onInts, inBits, Outcome.guard_eq_ok]
    simp [isChecked, exact]

theorem exact_comm (op : Arith) (a b : Int) : op.exact a b = op.exact b a := by
  cases op <;> simp only [exact, Int.add_comm, Int.mul_comm]

theorem exact_left_comm (op : Arith) (a b c : Int) :
    op.exact a (op.exact b c) = op.exact b (op.exact a c) := by
  cases op <;> simp only [exact, Int.add_left_comm, Int.mul_left_comm]

/-- An operand may be read before or after the operation. -/
theorem hold_exact_hold (op : Arith) (ty : Ty) (a b : Int) :
    ty.hold (op.exact a (ty.hold b)) = ty.hold (op.exact a b) := by
  cases op <;> simp only [exact, Ty.hold, Int.add_bmod_bmod, Int.mul_bmod_bmod]

/-- A sum or product of stored integers is the stored sum or product. -/
theorem apply_wrap_eq_ok (hop : (BinaryOp.arith op).isAssociative) (hty : ty.isInteger)
    {a b : Int} {u : Value} :
    op.apply (ty.wrap a) (ty.wrap b) = .ok u ↔
      (op.isChecked → fits ty.bits (op.exact (ty.hold a) (ty.hold b))) ∧
        ty.wrap (op.exact (ty.hold a) (ty.hold b)) = u := by
  rw [apply_wrap op hty, Outcome.map_eq_ok]
  simp only [onInts_eq_ok hop]
  exact ⟨fun ⟨n, ⟨hfits, hn⟩, hu⟩ => ⟨hfits, hn ▸ hu⟩, fun ⟨hfits, hu⟩ => ⟨_, ⟨hfits, rfl⟩, hu⟩⟩

/-- Only numbers of one type can be combined, and the result is of that type. -/
theorem exists_numeric_of_apply {v w u : Value} (h : op.apply v w = .ok u) :
    ∃ ty : Ty, ty.isNumeric ∧ ty.admitsDeep v ∧ ty.admitsDeep w ∧ ty.admitsDeep u := by
  unfold Arith.apply at h
  split at h
  · obtain ⟨n, -, rfl⟩ := Outcome.map_eq_ok.mp h
    exact ⟨.int32, rfl, rfl, rfl, rfl⟩
  · obtain ⟨n, -, rfl⟩ := Outcome.map_eq_ok.mp h
    exact ⟨.int64, rfl, rfl, rfl, rfl⟩
  · cases h
    exact ⟨.float32, rfl, rfl, rfl, rfl⟩
  · cases h
    exact ⟨.float64, rfl, rfl, rfl, rfl⟩
  · cases h
  · cases h

theorem admitsDeep_of_apply {v w u : Value} (hty : ty.isNumeric) (h : op.apply v w = .ok u)
    (hany : ty.admitsDeep v ∨ ty.admitsDeep w ∨ ty.admitsDeep u) :
    ty.admitsDeep v ∧ ty.admitsDeep w ∧ ty.admitsDeep u := by
  obtain ⟨s, hs, hv, hw, hu⟩ := exists_numeric_of_apply h
  have heq : ty = s := by
    rcases hany with hany | hany | hany
    · exact Ty.eq_of_numeric hty hs hany hv
    · exact Ty.eq_of_numeric hty hs hany hw
    · exact Ty.eq_of_numeric hty hs hany hu
  rw [heq]
  exact ⟨hv, hw, hu⟩

theorem apply_comm (hop : (BinaryOp.arith op).isAssociative) (hty : ty.isInteger)
    {v w u : Value} (hv : ty.admitsDeep v) (h : op.apply v w = .ok u) : op.apply w v = .ok u := by
  obtain ⟨-, hw, -⟩ := admitsDeep_of_apply (Ty.isNumeric_of_isInteger hty) h (.inl hv)
  obtain ⟨a, rfl⟩ := Ty.exists_wrap hty hv
  obtain ⟨b, rfl⟩ := Ty.exists_wrap hty hw
  rw [apply_wrap_eq_ok hop hty] at h ⊢
  rw [exact_comm]
  exact h

/-- If `x op d`, `c op (x op d)` and `c op d` have values, `x op (c op d)` has the value of
the second. -/
theorem apply_regroup (hop : (BinaryOp.arith op).isAssociative) (hty : ty.isInteger)
    {c d x cd xd u : Value} (hc : ty.admitsDeep c) (hcd : op.apply c d = .ok cd)
    (hxd : op.apply x d = .ok xd) (hu : op.apply c xd = .ok u) : op.apply x cd = .ok u := by
  have hnum := Ty.isNumeric_of_isInteger hty
  obtain ⟨-, hd, -⟩ := admitsDeep_of_apply hnum hcd (.inl hc)
  obtain ⟨hx, -, -⟩ := admitsDeep_of_apply hnum hxd (.inr (.inl hd))
  obtain ⟨c, rfl⟩ := Ty.exists_wrap hty hc
  obtain ⟨d, rfl⟩ := Ty.exists_wrap hty hd
  obtain ⟨x, rfl⟩ := Ty.exists_wrap hty hx
  obtain ⟨hfitscd, rfl⟩ := (apply_wrap_eq_ok hop hty).mp hcd
  obtain ⟨hfitsxd, rfl⟩ := (apply_wrap_eq_ok hop hty).mp hxd
  obtain ⟨hfitsu, rfl⟩ := (apply_wrap_eq_ok hop hty).mp hu
  refine (apply_wrap_eq_ok hop hty).mpr ⟨fun hchecked => ?_, ?_⟩
  · -- neither inner result wraps, so both outer results are the same integer
    have h := hfitsu hchecked
    rw [Ty.hold_of_fits hty (hfitsxd hchecked), exact_left_comm] at h
    rw [Ty.hold_of_fits hty (hfitscd hchecked)]
    exact h
  · rw [Ty.wrap_eq_wrap hty, hold_exact_hold, hold_exact_hold, exact_left_comm]

end Arith
end SeqQuery
