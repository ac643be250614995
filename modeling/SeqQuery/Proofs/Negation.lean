/-
# Negating a predicate twice

Negating looks at the front of an expression only: it takes a `!` away if there is one
and puts one there if there is none. So a predicate that begins with no `!` or with a
single one comes back when it is negated twice, and one that begins with two of them loses
both, one after the other (`Expr.negate_twice`): `!!q` becomes `q`, which says the same but
is another tree (`Lambda.negate_negate_ne`).

However many there are, a negation holds where its predicate does not hold, does not hold
where its predicate holds, and has no answer where its predicate has none
(`Lambda.test_negate`).

Key theorems: `Expr.negate_twice`, `Expr.eval_not_eq_bool`, `Lambda.test_negate`,
`Lambda.negate_negate`, `Lambda.negate_negate_ne`.
-/
import SeqQuery.Proofs.Joining

namespace SeqQuery
namespace Expr

variable {e : Expr}

/-- A `!` in front is taken away. -/
theorem negate_not (q : Expr) (ty : Ty) : (Expr.unary .not q ty).negate = .ok q := rfl

/-- A `!` is put in front of a predicate that has none there. -/
theorem negate_plain (he : ∀ q ty, e ≠ .unary .not q ty) (hbool : e.ty = .bool) :
    e.negate = .ok (.unary .not e .bool) := by
  have hmake : mkUnary .not e = .ok (.unary .not e .bool) :=
    mkUnary_eq_ok.mpr ⟨.bool, UnaryOp.resultTy_not.mpr ⟨.inl hbool, hbool⟩, rfl⟩
  unfold negate
  split
  · next q ty => exact absurd rfl (he q ty)
  · exact hmake

/-- What stands behind the `!` of a predicate is a predicate, and the `!` is one of
predicates. -/
theorem Checked.of_not {q : Expr} {ty : Ty} (hc : (Expr.unary .not q ty).Checked)
    (hbool : ty = .bool) : q.ty = .bool := by
  obtain ⟨-, hty⟩ := UnaryOp.resultTy_not.mp hc.2
  rw [hty, hbool]

/-- A `!` gives a Boolean exactly when what stands behind it gives the other one. -/
theorem eval_not_eq_bool {env : Env} {ty : Ty} {b : Bool} :
    (Expr.unary .not e ty).eval env = .ok (.bool b) ↔ e.eval env = .ok (.bool !b) := by
  rw [eval_unary, Outcome.bind_eq_ok]
  constructor
  · rintro ⟨v, hv, hb⟩
    rw [hv, UnaryOp.not_apply_eq_bool hb]
  · intro hb
    exact ⟨_, hb, by simp [UnaryOp.apply]⟩

/-- Negating a predicate twice gives it back, unless it begins with two `!`: these are gone. -/
theorem negate_twice (hc : e.Checked) (hbool : e.ty = .bool) :
    ∃ n m, e.negate = .ok n ∧ n.negate = .ok m ∧
      ((∀ q s t, e ≠ .unary .not (.unary .not q s) t) → m = e) ∧
      ∀ q s t, e = .unary .not (.unary .not q s) t → m = q := by
  by_cases hone : ∃ q ty, e = .unary .not q ty
  · obtain ⟨q, ty, rfl⟩ := hone
    by_cases htwo : ∃ q' s, q = .unary .not q' s
    · obtain ⟨q', s, rfl⟩ := htwo
      refine ⟨_, q', negate_not _ _, negate_not _ _, ?_, ?_⟩
      · exact fun h => absurd rfl (h q' s ty)
      · rintro _ _ _ ⟨⟩
        rfl
    · have hplain : ∀ q' s, q ≠ .unary .not q' s := fun q' s h => htwo ⟨q', s, h⟩
      obtain rfl : ty = .bool := hbool
      refine ⟨q, _, negate_not _ _, negate_plain hplain (hc.of_not rfl), fun _ => rfl, ?_⟩
      rintro q' s t ⟨⟩
      exact absurd rfl (hplain q' s)
  · have hplain : ∀ q ty, e ≠ .unary .not q ty := fun q ty h => hone ⟨q, ty, h⟩
    refine ⟨_, e, negate_plain hplain hbool, negate_not _ _, fun _ => rfl, ?_⟩
    exact fun q s t h => absurd h (hplain _ _)

end Expr

namespace Lambda

/-- A negation gives a Boolean exactly where its predicate gives the other one. -/
theorem test_negate {p n : Lambda} (h : p.negate = .ok n) (now : Int64) (v : Value) (b : Bool) :
    n.test now v = .ok b ↔ p.test now v = .ok !b := by
  obtain ⟨body, hbody, rfl⟩ := Outcome.map_eq_ok.mp h
  rw [test_eq_ok, test_eq_ok, apply, apply]
  rcases Expr.negate_eq_ok hbody with ⟨ty, hnot⟩ | hnot
  · rw [hnot, Expr.eval_not_eq_bool, Bool.not_not]
  · obtain ⟨ty, -, rfl⟩ := Expr.mkUnary_eq_ok.mp hnot
    exact Expr.eval_not_eq_bool

/-- A predicate can be negated, and its negation again. This gives the predicate back, but
for a body that begins with two `!`, which then has none of the two. The negation gives a
Boolean exactly where the predicate gives the other one. -/
theorem negate_negate (p : Lambda) (hp : p.body.Built) (hbool : p.returnTy = .bool) :
    ∃ n m, p.negate = .ok n ∧ n.negate = .ok m ∧ m.param = p.param ∧
      ((∀ q s t, p.body ≠ .unary .not (.unary .not q s) t) → m.body = p.body) ∧
      (∀ q s t, p.body = .unary .not (.unary .not q s) t → m.body = q) ∧
      ∀ now v b, n.test now v = .ok b ↔ p.test now v = .ok !b := by
  obtain ⟨x, e⟩ := p
  obtain ⟨n, m, hn, hm, hsame, hdropped⟩ := Expr.negate_twice hp.checked hbool
  have hnegate : Lambda.negate ⟨x, e⟩ = .ok ⟨x, n⟩ := Outcome.map_eq_ok.mpr ⟨n, hn, rfl⟩
  have hagain : Lambda.negate ⟨x, n⟩ = .ok ⟨x, m⟩ := Outcome.map_eq_ok.mpr ⟨m, hm, rfl⟩
  exact ⟨⟨x, n⟩, ⟨x, m⟩, hnegate, hagain, rfl, hsame, hdropped, test_negate hnegate⟩

/-- `x => !(x < 3)` comes back when it is negated twice, and its negation passes where it
does not. -/
theorem negate_negate_less_than :
    let x : Param := ⟨0, "x", .int32⟩
    let less : Expr := .binary (.relation .lt) (.param x) (Expr.ofValue (.int32 3)) .bool
    let p : Lambda := ⟨x, .unary .not less .bool⟩
    ∃ n m, p.negate = .ok n ∧ n.negate = .ok m ∧ m.body = p.body ∧
      ∀ now v b, n.test now v = .ok b ↔ p.test now v = .ok !b := by
  intro x less p
  have hless : Expr.mkBinary (.relation .lt) (.param x) (Expr.ofValue (.int32 3)) = .ok less := rfl
  have hp : Expr.mkUnary .not less = .ok p.body := rfl
  obtain ⟨n, m, hn, hm, -, hsame, -, htest⟩ :=
    negate_negate p (.unary (.binary (.param x) (.value _) hless) hp) rfl
  have hplain : ∀ q s t, p.body ≠ .unary .not (.unary .not q s) t := by simp [p, less]
  exact ⟨n, m, hn, hm, hsame hplain, htest⟩

/-- A predicate that begins with two `!` does not come back: `x => !!x` becomes `x => x`. -/
theorem negate_negate_ne :
    let x : Param := ⟨0, "x", .bool⟩
    let once : Expr := .unary .not (.param x) .bool
    let p : Lambda := ⟨x, .unary .not once .bool⟩
    p.body.Built ∧ p.returnTy = .bool ∧
      ∃ n m, p.negate = .ok n ∧ n.negate = .ok m ∧ m.body ≠ p.body := by
  intro x once p
  have honce : Expr.mkUnary .not (.param x) = .ok once := rfl
  have hp : Expr.mkUnary .not once = .ok p.body := rfl
  refine ⟨.unary (.unary (.param x) honce) hp, rfl, _, _, rfl, rfl, ?_⟩
  intro h
  cases h

end Lambda
end SeqQuery
