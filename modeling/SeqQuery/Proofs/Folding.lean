/-
# Folding keeps values

Folding and regrouping go from the leaves up (`Expr.fold_bottomUp`,
`Expr.regroup_bottomUp`), so it is enough to look at one node: a chain is regrouped
(`regroup?_refines`), a connective comes down to a side (`keptSide?_refines`), an operation
on constants is evaluated (`evaluate?_refines`). Each keeps the type of a well-typed node
and the value, if the node has one.

Sums and products of floating-point numbers are left out, because they depend on the
order in which they are taken.

Key definition: `Expr.isFloatSum`.
Key theorems: `Expr.finish_induction`, `Expr.finish_checked`, `Expr.finish_refines`,
`Expr.fold_checked`, `Expr.fold_refines`, `Expr.regroup_refines`, `Expr.fold_regroup_value`.
-/
import SeqQuery.Expr.Fold
import SeqQuery.Proofs.Rewriting
import SeqQuery.Proofs.Wrapping

namespace SeqQuery

/-- The floating-point types. -/
def Ty.isFloat : Ty → Bool
  | .float32 | .float64 => true
  | _ => false

theorem Ty.isInteger_of_not_isFloat {ty : Ty} (h : ty.isNumeric) (hf : ty.isFloat = false) :
    ty.isInteger := by
  rcases Ty.isNumeric_iff.mp h with rfl | rfl | rfl | rfl
  · rfl
  · rfl
  · cases hf
  · cases hf

namespace Expr

/-- Whether a node is a sum or product of floating-point numbers. -/
def isFloatSum : Expr → Bool
  | .binary op _ _ ty => op.isAssociative && ty.isFloat
  | _ => false

theorem isFloatSum_shallow : Shallow fun n => n.isFloatSum = false := by
  intro g e h
  cases e <;> exact h

/-! ### Both rewrites go from the leaves up -/

theorem foldAll_eq_map : ∀ es : List Expr, foldAll es = es.map fold
  | [] => rfl
  | e :: es => by rw [foldAll, foldAll_eq_map es, List.map_cons]

theorem foldBindings_eq_map : ∀ bs : List (String × Expr),
    foldBindings bs = bs.map fun b => (b.1, fold b.2)
  | [] => rfl
  | (name, e) :: bs => by rw [foldBindings, foldBindings_eq_map bs, List.map_cons]

/-- Folding finishes each node after everything below it. -/
theorem fold_bottomUp : BottomUp finish fold := by
  intro e
  cases e with
  | call method es ty => rw [fold, foldAll_eq_map, mapChildren]
  | construct record es bs =>
    rw [fold, foldAll_eq_map, foldBindings_eq_map]
    rfl
  | _ => rfl

theorem regroupAll_eq_map : ∀ es : List Expr, regroupAll es = es.map regroup
  | [] => rfl
  | e :: es => by rw [regroupAll, regroupAll_eq_map es, List.map_cons]

theorem regroupBindings_eq_map : ∀ bs : List (String × Expr),
    regroupBindings bs = bs.map fun b => (b.1, regroup b.2)
  | [] => rfl
  | (name, e) :: bs => by rw [regroupBindings, regroupBindings_eq_map bs, List.map_cons]

/-- Regroups a node of any kind; only operations on two operands can be regrouped. -/
def regroupStep : Expr → Expr
  | .binary op l r ty => regroupNode op l r ty
  | e => e

theorem regroupStep_binary (op : BinaryOp) (l r : Expr) (ty : Ty) :
    regroupStep (.binary op l r ty) =
      (if op.isAssociative then regroup? op l r else none).getD (.binary op l r ty) := rfl

theorem regroup_bottomUp : BottomUp regroupStep regroup := by
  intro e
  cases e with
  | call method es ty =>
    rw [regroup, regroupAll_eq_map]
    rfl
  | construct record es bs =>
    rw [regroup, regroupAll_eq_map, regroupBindings_eq_map]
    rfl
  | _ => rfl

/-! ### Regrouping a chain -/

theorem constant?_eq_some {e : Expr} {v : Value} :
    e.constant? = some v ↔ ∃ ty, e = .const v ty := by
  cases e <;> simp [constant?]

/-- Of the sides of an inner operation one is a constant and the other the rest. -/
theorem constantAndRest?_eq_some {l r rest : Expr} {d : Value}
    (h : constantAndRest? l r = some (d, rest)) :
    (∃ ty, l = .const d ty ∧ r = rest) ∨ ∃ ty, r = .const d ty ∧ l = rest := by
  unfold constantAndRest? at h
  split at h
  · next d' hl =>
    obtain ⟨rfl, rfl⟩ := Prod.mk.inj (Option.some.inj h)
    obtain ⟨ty, rfl⟩ := constant?_eq_some.mp hl
    exact .inl ⟨ty, rfl, rfl⟩
  · next d' _ hr =>
    obtain ⟨rfl, rfl⟩ := Prod.mk.inj (Option.some.inj h)
    obtain ⟨ty, rfl⟩ := constant?_eq_some.mp hr
    exact .inr ⟨ty, rfl, rfl⟩
  · cases h

/-- A chain is regrouped onto its other operand when both constants are there and can be
combined. -/
theorem regroupOnto?_parts {op : BinaryOp} {outer inner e : Expr}
    (h : regroupOnto? op outer inner = some e) :
    ∃ c s l r ty d rest cd, outer = .const c s ∧ inner = .binary op l r ty ∧
      constantAndRest? l r = some (d, rest) ∧ op.apply c d = .ok cd ∧
      mkBinary op rest (ofValue cd) = .ok e := by
  unfold regroupOnto? at h
  split at h
  · next c innerOp l r ty hc =>
    obtain ⟨s, rfl⟩ := constant?_eq_some.mp hc
    split at h
    · next hop =>
      obtain ⟨-, rfl⟩ := hop
      split at h
      · next d rest hrest =>
        split at h
        · next cd hcd =>
          refine ⟨c, s, l, r, ty, d, rest, cd, rfl, rfl, hrest, hcd, ?_⟩
          cases hmk : mkBinary innerOp rest (ofValue cd) with
          | ok e' =>
            rw [hmk] at h
            exact congrArg Except.ok (Option.some.inj h)
          | error err =>
            rw [hmk] at h
            cases h
        · cases h
      · cases h
    · cases h
  · cases h

theorem regroupOnto?_eq_some {op : BinaryOp} {outer inner e : Expr}
    (h : regroupOnto? op outer inner = some e) :
    ∃ c s l r ty d rest cd, outer = .const c s ∧ inner = .binary op l r ty ∧
      ((∃ t, l = .const d t ∧ r = rest) ∨ ∃ t, r = .const d t ∧ l = rest) ∧
      op.apply c d = .ok cd ∧ mkBinary op rest (ofValue cd) = .ok e := by
  obtain ⟨c, s, l, r, ty, d, rest, cd, houter, hinner, hrest, hcd, hmk⟩ := regroupOnto?_parts h
  exact ⟨c, s, l, r, ty, d, rest, cd, houter, hinner, constantAndRest?_eq_some hrest, hcd, hmk⟩

/-- An operation is regrouped onto one of its sides. -/
theorem regroup?_eq_some {op : BinaryOp} {l r e : Expr} (h : regroup? op l r = some e) :
    ∃ outer, ∃ inner ∈ [l, r], regroupOnto? op outer inner = some e := by
  rcases Option.or_eq_some_iff.mp h with h | ⟨-, h⟩
  · exact ⟨l, r, by simp, h⟩
  · exact ⟨r, l, by simp, h⟩

section Regroup

variable {op : Arith} {outer inner e : Expr} {ty : Ty}

theorem regroupOnto?_checked (h : regroupOnto? (.arith op) outer inner = some e)
    (hinner : inner.Checked) : e.Checked ∧ e.ty = inner.ty := by
  obtain ⟨c, s, l, r, ty, d, rest, cd, -, rfl, hrest, -, hmk⟩ := regroupOnto?_eq_some h
  obtain ⟨hcl, hcr, hty⟩ := hinner
  obtain ⟨-, hlr, rfl⟩ := BinaryOp.resultTy_arith.mp hty
  obtain ⟨ty, hty', rfl⟩ := mkBinary_eq_ok.mp hmk
  obtain ⟨-, -, rfl⟩ := BinaryOp.resultTy_arith.mp hty'
  rcases hrest with ⟨t, rfl, rfl⟩ | ⟨t, rfl, rfl⟩
  · exact ⟨⟨hcr, trivial, hty'⟩, hlr.symm⟩
  · exact ⟨⟨hcl, trivial, hty'⟩, rfl⟩

/-- Where the chain is one of integers, so are both its constants. -/
theorem regroupOnto?_integers (h : regroupOnto? (.arith op) outer inner = some e)
    (hinner : inner.Checked) (hint : inner.ty.isInteger) :
    ∃ c s l r ty d rest cd, outer = .const c s ∧ inner = .binary (.arith op) l r ty ∧
      constantAndRest? l r = some (d, rest) ∧ op.apply c d = .ok cd ∧
      .binary (.arith op) rest (ofValue cd) ty = e ∧ rest.ty = ty ∧ ty.admitsDeep c ∧
      ty.admitsDeep d := by
  obtain ⟨c, s, l, r, ty, d, rest, cd, rfl, rfl, hrest, hcd, hmk⟩ := regroupOnto?_parts h
  obtain ⟨-, hty⟩ := regroupOnto?_checked h hinner
  obtain ⟨ty', hty', rfl⟩ := mkBinary_eq_ok.mp hmk
  obtain ⟨-, hcdty, rfl⟩ := BinaryOp.resultTy_arith.mp hty'
  replace hty : rest.ty = ty := hty
  have hnum : ty.isNumeric := Ty.isNumeric_of_isInteger hint
  -- the combined constant has the type of the chain
  have hcddeep : ty.admitsDeep cd := by
    have heq : cd.ty = ty := hcdty.symm.trans hty
    rw [← heq]
    exact Value.admitsDeep_ty (heq ▸ hnum)
  obtain ⟨hc, hd, -⟩ := Arith.admitsDeep_of_apply hnum hcd (.inr (.inr hcddeep))
  exact ⟨c, s, l, r, ty, d, rest, cd, rfl, rfl, hrest, hcd, hty ▸ rfl, hty, hc, hd⟩

/-- The value of `x op d` or `d op x` for a constant `d`, with its sides in that order. -/
theorem eval_inner (hop : (BinaryOp.arith op).isAssociative) {l r rest : Expr} {d xd : Value}
    (hty : ty.isInteger) (hd : ty.admitsDeep d) {env : Env}
    (hrest : (∃ t, l = .const d t ∧ r = rest) ∨ ∃ t, r = .const d t ∧ l = rest)
    (h : (Expr.binary (.arith op) l r ty).eval env = .ok xd) :
    ∃ x, rest.eval env = .ok x ∧ op.apply x d = .ok xd := by
  rw [eval_strict env rfl, Outcome.bind_eq_ok] at h
  obtain ⟨a, ha, h⟩ := h
  obtain ⟨b, hb, h⟩ := Outcome.bind_eq_ok.mp h
  rcases hrest with ⟨t, rfl, rfl⟩ | ⟨t, rfl, rfl⟩
  · obtain rfl : d = a := Except.ok.inj ha
    exact ⟨b, hb, Arith.apply_comm hop hty hd h⟩
  · obtain rfl : d = b := Except.ok.inj hb
    exact ⟨a, ha, h⟩

/-- A regrouped chain of integers has the value of the chain with its constant on the
left. -/
theorem regroupOnto?_value (hop : (BinaryOp.arith op).isAssociative)
    (h : regroupOnto? (.arith op) outer inner = some e) (hinner : inner.Checked)
    (hint : inner.ty.isInteger) {env : Env} {c xd : Value} (hc : outer.eval env = .ok c)
    (hxd : inner.eval env = .ok xd) :
    inner.ty.admitsDeep c ∧ ∀ u, op.apply c xd = .ok u → e.eval env = .ok u := by
  obtain ⟨c', s, l, r, ty, d, rest, cd, rfl, rfl, hrest, hcd, rfl, -, hcdeep, hd⟩ :=
    regroupOnto?_integers h hinner hint
  obtain rfl : c' = c := Except.ok.inj hc
  obtain ⟨x, hx, hxd⟩ := eval_inner hop hint hd (constantAndRest?_eq_some hrest) hxd
  refine ⟨hcdeep, fun u hu => ?_⟩
  rw [eval_strict env rfl, hx, Outcome.ok_bind]
  exact Arith.apply_regroup hop hint hcdeep hcd hxd hu

end Regroup

/-- A node whose chain is regrouped stays well-typed and of its type. -/
theorem regroup?_checked {op : BinaryOp} (hop : op.isAssociative) {l r e : Expr} {ty : Ty}
    (h : regroup? op l r = some e) (hc : (Expr.binary op l r ty).Checked) :
    e.Checked ∧ e.ty = ty := by
  obtain ⟨hcl, hcr, hty⟩ := hc
  cases op with
  | arith op =>
    obtain ⟨-, hlr, rfl⟩ := BinaryOp.resultTy_arith.mp hty
    rcases Option.or_eq_some_iff.mp h with h | ⟨-, h⟩
    · rw [hlr]
      exact regroupOnto?_checked h hcr
    · exact regroupOnto?_checked h hcl
  | _ => cases hop

/-- A node whose chain is regrouped keeps its value, unless it is a sum or product of
floating-point numbers. -/
theorem regroup?_refines {op : BinaryOp} (hop : op.isAssociative) {l r e : Expr} {ty : Ty}
    (h : regroup? op l r = some e) (hc : (Expr.binary op l r ty).Checked)
    (hf : (Expr.binary op l r ty).isFloatSum = false) {env : Env} :
    Refines env (.binary op l r ty) env e := by
  obtain ⟨hcl, hcr, hty⟩ := hc
  cases op with
  | arith op =>
    obtain ⟨hnum, hlr, rfl⟩ := BinaryOp.resultTy_arith.mp hty
    have hint : l.ty.isInteger := by
      refine Ty.isInteger_of_not_isFloat hnum ?_
      rw [isFloatSum, hop, Bool.true_and] at hf
      exact hf
    intro u hu
    rw [eval_strict env rfl, Outcome.bind_eq_ok] at hu
    obtain ⟨v, hv, hu⟩ := hu
    obtain ⟨w, hw, hu⟩ := Outcome.bind_eq_ok.mp hu
    rcases Option.or_eq_some_iff.mp h with h | ⟨-, h⟩
    · exact (regroupOnto?_value hop h hcr (hlr ▸ hint) hv hw).2 u hu
    · -- the constant stands on the right and changes sides
      obtain ⟨hwdeep, hvalue⟩ := regroupOnto?_value hop h hcl hint hw hv
      have hnum := Ty.isNumeric_of_isInteger hint
      obtain ⟨hvdeep, -, -⟩ := Arith.admitsDeep_of_apply hnum hu (.inr (.inl hwdeep))
      exact hvalue u (Arith.apply_comm hop hint hvdeep hu)
  | _ => cases hop

/-! ### Dropping a connective -/

/-- The expression on a side. -/
def Side.choose : Side → Expr → Expr → Expr
  | .left, l, _ => l
  | .right, _, r => r

theorem constantBool?_eq_some {e : Expr} {b : Bool} :
    e.constantBool? = some b ↔ ∃ ty, e = .const (.bool b) ty := by
  rw [constantBool?, Option.bind_eq_some_iff]
  constructor
  · rintro ⟨v, hv, hb⟩
    obtain ⟨ty, rfl⟩ := constant?_eq_some.mp hv
    cases v <;> simp only [Value.bool?, reduceCtorEq, Option.some.injEq] at hb
    subst hb
    exact ⟨ty, rfl⟩
  · rintro ⟨ty, rfl⟩
    exact ⟨.bool b, rfl, rfl⟩

/-- The right side is kept behind a constant that leaves the decision to it; the left side
is kept when it is a constant that decides, or in front of one that cannot. -/
theorem keptSide?_eq_some {op : Connective} {l r : Expr} {side : Side}
    (h : keptSide? op l r = some side) :
    (side = .right ∧ l.constantBool? = some (!op.stop)) ∨
      (side = .left ∧ (l.constantBool? = some op.stop ∨ r.constantBool? = some (!op.stop))) := by
  unfold keptSide? at h
  split at h <;> simp_all [Connective.stop]

theorem evalBool_eq_ok {env : Env} {e : Expr} {b : Bool} :
    e.evalBool env = .ok b ↔ e.eval env = .ok (.bool b) := by
  rw [evalBool, Outcome.bind_eq_ok]
  constructor
  · rintro ⟨v, hv, hb⟩
    cases v <;> simp only [Value.expectBool, reduceCtorEq, Except.ok.injEq] at hb
    rw [hv, hb]
  · intro h
    exact ⟨.bool b, h, rfl⟩

/-- A connective that a constant decides keeps its value and no side has to be evaluated
that was not. -/
theorem keptSide?_refines {op : Connective} {l r : Expr} {side : Side}
    (h : keptSide? op l r = some side) (ty : Ty) {env : Env} :
    Refines env (.binary (.connective op) l r ty) env (side.choose l r) := by
  intro u hu
  rw [eval_connective, Outcome.bind_eq_ok] at hu
  obtain ⟨a, ha, hu⟩ := hu
  rw [evalBool_eq_ok] at ha
  rcases keptSide?_eq_some h with ⟨rfl, hl⟩ | ⟨rfl, hl | hr⟩
  · obtain ⟨t, rfl⟩ := constantBool?_eq_some.mp hl
    obtain rfl : (!op.stop) = a := by simpa [eval] using ha
    rw [if_neg (by simp), Outcome.map_eq_ok] at hu
    obtain ⟨b, hb, rfl⟩ := hu
    exact evalBool_eq_ok.mp hb
  · obtain ⟨t, rfl⟩ := constantBool?_eq_some.mp hl
    obtain rfl : op.stop = a := by simpa [eval] using ha
    rw [if_pos rfl] at hu
    rw [← hu]
    exact ha
  · obtain ⟨t, rfl⟩ := constantBool?_eq_some.mp hr
    by_cases hstop : a = op.stop
    · rw [if_pos hstop] at hu
      rw [← hu]
      exact ha
    · rw [if_neg hstop, Outcome.map_eq_ok] at hu
      obtain ⟨b, hb, rfl⟩ := hu
      obtain rfl : (!op.stop) = b := by simpa [evalBool_eq_ok, eval] using hb
      rw [Bool.eq_not_of_ne hstop] at ha
      exact ha

/-! ### Evaluating constants -/

theorem isConstant_iff {e : Expr} : e.isConstant ↔ ∃ v ty, e = .const v ty := by
  cases e <;> simp [isConstant, constant?]

theorem refines_const {e : Expr} (h : e.isConstant) (env env' : Env) : Refines env e env' e := by
  obtain ⟨v, ty, rfl⟩ := isConstant_iff.mp h
  exact fun _ hv => hv

theorem apply_pure {method : Method} (h : method.isPure) (now now' : Int64)
    (object : Option Value) (args : List Value) :
    method.apply now object args = method.apply now' object args := by
  cases method <;> first | rfl | cases h

/-- An operation on constants alone has the same value under any environment. -/
theorem isReady_refines {e : Expr} (h : e.isReady) (env env' : Env) : Refines env e env' e := by
  cases e with
  | const v ty => cases h
  | param p => cases h
  | construct record es bs => cases h
  | member e name ty => exact (refines_const h env env').member name ty ty
  | unary op e ty => exact (refines_const h env env').unary op ty ty
  | binary op l r ty =>
    obtain ⟨hl, hr⟩ := (Bool.and_eq_true _ _).mp h
    exact (refines_const hl env env').binary (refines_const hr env env') op ty ty
  | cond t a b ty =>
    obtain ⟨hta, hb⟩ := (Bool.and_eq_true _ _).mp h
    obtain ⟨ht, ha⟩ := (Bool.and_eq_true _ _).mp hta
    exact (refines_const ht env env').cond (refines_const ha env env') (refines_const hb env env')
      ty ty
  | call method es ty =>
    obtain ⟨hpure, hes⟩ := (Bool.and_eq_true _ _).mp h
    rw [List.all_eq_true] at hes
    intro u hu
    rw [eval_call, Outcome.bind_eq_ok] at hu ⊢
    obtain ⟨vs, hvs, hu⟩ := hu
    rw [evalAll_eq_ok] at hvs
    refine ⟨vs, (evalAll_eq_ok env').mpr ?_, ?_⟩
    · have hsame : List.Forall₂ (fun e e' => Refines env e env' e') es es :=
        List.forall₂_same.mpr fun e he => refines_const (hes e he) env env'
      exact Outcome.forall₂_transfer (fun _ _ w hee' hw => hee' w hw) hsame hvs
    · rw [apply_pure hpure env'.now env.now]
      exact hu

theorem evaluate?_eq_some {e e' : Expr} (h : e.evaluate? = some e') :
    e.isReady ∧ ∃ v, e.eval .empty = .ok v ∧ .const v e.ty = e' := by
  unfold evaluate? at h
  split at h
  · next hready =>
    split at h
    · next v hv =>
      exact ⟨hready, v, hv, Option.some.inj h⟩
    · cases h
  · cases h

theorem evaluate?_refines {e e' : Expr} (h : e.evaluate? = some e') {env : Env} :
    Refines env e env e' := by
  obtain ⟨hready, v, hv, rfl⟩ := evaluate?_eq_some h
  intro u hu
  rw [← isReady_refines hready env .empty u hu, hv, eval]

/-! ### A node, and a whole expression -/

theorem simplify?_eq_some {e e' : Expr} (h : e.simplify? = some e') :
    (∃ op l r ty side, e = .binary (.connective op) l r ty ∧ keptSide? op l r = some side ∧
        side.choose l r = e') ∨
      ∃ op l r ty, e = .binary op l r ty ∧ op.isAssociative ∧ regroup? op l r = some e' := by
  unfold simplify? at h
  split at h
  · next op l r ty =>
    obtain ⟨side, hside, hkept⟩ := Option.map_eq_some_iff.mp h
    refine .inl ⟨op, l, r, ty, side, rfl, hside, ?_⟩
    cases side <;> exact hkept
  · next op l r ty _ =>
    split at h
    · next hop => exact .inr ⟨op, l, r, ty, rfl, hop, h⟩
    · cases h
  · cases h

theorem simplify?_checked {e e' : Expr} (h : e.simplify? = some e') (hc : e.Checked) :
    e'.Checked ∧ e'.ty = e.ty := by
  rcases simplify?_eq_some h with ⟨op, l, r, ty, side, rfl, -, rfl⟩ | ⟨op, l, r, ty, rfl, hop, h⟩
  · obtain ⟨hcl, hcr, hty⟩ := hc
    obtain ⟨hl, hr, rfl⟩ := BinaryOp.resultTy_connective.mp hty
    cases side with
    | left => exact ⟨hcl, hl⟩
    | right => exact ⟨hcr, hr⟩
  · exact regroup?_checked hop h hc

theorem simplify?_refines {e e' : Expr} (h : e.simplify? = some e') (hc : e.Checked)
    (hf : e.isFloatSum = false) {env : Env} : Refines env e env e' := by
  rcases simplify?_eq_some h with
    ⟨op, l, r, ty, side, rfl, hside, rfl⟩ | ⟨op, l, r, ty, rfl, hop, h⟩
  · exact keptSide?_refines hside ty
  · exact regroup?_refines hop h hc hf

/-- What folding makes of a node is the node, what it is simplified to, or the value of one of
these. -/
theorem finish_induction {motive : Expr → Prop} (e : Expr) (hself : motive e)
    (hsimplify : ∀ e', e.simplify? = some e' → motive e')
    (hevaluate : ∀ s e', motive s → s.evaluate? = some e' → motive e') : motive e.finish := by
  have hsimpler : motive (e.simplify?.getD e) := by
    cases h : e.simplify? with
    | none => exact hself
    | some e' => exact hsimplify e' h
  unfold finish
  simp only
  cases h : (e.simplify?.getD e).evaluate? with
  | none => exact hsimpler
  | some e' => exact hevaluate _ e' hsimpler h

/-- A finished node is well-typed and of the type of the node. -/
theorem finish_checked (e : Expr) (hc : e.Checked) : e.finish.Checked ∧ e.finish.ty = e.ty := by
  refine finish_induction (motive := fun n => n.Checked ∧ n.ty = e.ty) e ⟨hc, rfl⟩
    (fun e' h => simplify?_checked h hc) fun s e' hs h => ?_
  obtain ⟨-, v, -, rfl⟩ := evaluate?_eq_some h
  exact ⟨trivial, hs.2⟩

/-- Finishing a node adds nothing but constants and operations on two operands. -/
theorem finish_all_of {P : Expr → Prop} (hconst : ∀ v ty, P (.const v ty))
    (hbinary : ∀ op l r ty, P (.binary op l r ty)) {e : Expr} (h : e.All P) : e.finish.All P := by
  have honto : ∀ {op outer inner e'}, regroupOnto? op outer inner = some e' → inner.All P →
      e'.All P := by
    intro op outer inner e' h hinner
    obtain ⟨c, s, l, r, ty, d, rest, cd, -, rfl, hrest, -, hmk⟩ := regroupOnto?_eq_some h
    obtain ⟨-, hl, hr⟩ := all_binary.mp hinner
    obtain ⟨ty', -, rfl⟩ := mkBinary_eq_ok.mp hmk
    have hrestall : rest.All P := by
      rcases hrest with ⟨t, -, rfl⟩ | ⟨t, -, rfl⟩
      · exact hr
      · exact hl
    exact all_binary.mpr ⟨hbinary _ _ _ _, hrestall, all_const.mpr (hconst _ _)⟩
  refine finish_induction (motive := fun n => n.All P) e h (fun e' hsimple => ?_)
    fun s e' _ hvalue => ?_
  · rcases simplify?_eq_some hsimple with
      ⟨op, l, r, ty, side, rfl, -, rfl⟩ | ⟨op, l, r, ty, rfl, -, hregroup⟩
    · obtain ⟨-, hl, hr⟩ := all_binary.mp h
      cases side with
      | left => exact hl
      | right => exact hr
    · obtain ⟨outer, inner, hinner, honto'⟩ := regroup?_eq_some hregroup
      exact honto honto' ((all_iff_children.mp h).2 inner hinner)
  · obtain ⟨-, v, -, rfl⟩ := evaluate?_eq_some hvalue
    exact all_const.mpr (hconst v _)

/-- A finished node has the value of the node. -/
theorem finish_refines (e : Expr) (hc : e.Checked) (hf : e.isFloatSum = false) {env : Env} :
    Refines env e env e.finish :=
  finish_induction (motive := Refines env e env) e (.refl e)
    (fun _ h => simplify?_refines h hc hf) fun _ _ hs h => hs.trans (evaluate?_refines h)

theorem regroupStep_checked (e : Expr) (hc : e.Checked) :
    e.regroupStep.Checked ∧ e.regroupStep.ty = e.ty := by
  cases e with
  | binary op l r ty =>
    rw [regroupStep_binary]
    by_cases hop : op.isAssociative
    · rw [if_pos hop]
      cases h : regroup? op l r with
      | none => exact ⟨hc, rfl⟩
      | some e' => exact regroup?_checked hop h hc
    · rw [if_neg hop]
      exact ⟨hc, rfl⟩
  | _ => exact ⟨hc, rfl⟩

theorem regroupStep_refines (e : Expr) (hc : e.Checked) (hf : e.isFloatSum = false) {env : Env} :
    Refines env e env e.regroupStep := by
  cases e with
  | binary op l r ty =>
    rw [regroupStep_binary]
    by_cases hop : op.isAssociative
    · rw [if_pos hop]
      cases h : regroup? op l r with
      | none => exact .refl _
      | some e' => exact regroup?_refines hop h hc hf
    · rw [if_neg hop]
      exact .refl _
  | _ => exact .refl _

theorem fold_checked {e : Expr} (hc : e.Checked) : e.fold.Checked ∧ e.fold.ty = e.ty :=
  fold_bottomUp.checked finish_checked e hc

theorem regroup_checked {e : Expr} (hc : e.Checked) :
    e.regroup.Checked ∧ e.regroup.ty = e.ty :=
  regroup_bottomUp.checked regroupStep_checked e hc

theorem fold_refines {e : Expr} (hc : e.Checked) (hf : e.All fun n => n.isFloatSum = false)
    (env : Env) : Refines env e env e.fold :=
  fold_bottomUp.refines isFloatSum_shallow finish_checked
    (fun e hc hf => finish_refines e hc hf) e hc hf

theorem regroup_refines {e : Expr} (hc : e.Checked) (hf : e.All fun n => n.isFloatSum = false)
    (env : Env) : Refines env e env e.regroup :=
  regroup_bottomUp.refines isFloatSum_shallow regroupStep_checked
    (fun e hc hf => regroupStep_refines e hc hf) e hc hf

/-- Folding and regrouping keep the value of an expression that is built through the
typing rules and adds or multiplies no floating-point numbers. -/
theorem fold_regroup_value (env : Env) (e : Expr) (he : e.Built)
    (hf : ∀ n ∈ e.nodes, n.isFloatSum = false) (v : Value) (h : e.eval env = .ok v) :
    e.fold.eval env = .ok v ∧ e.regroup.eval env = .ok v :=
  ⟨fold_refines he.checked hf env v h, regroup_refines he.checked hf env v h⟩

/-- In `1 + (x + 2)` the constants meet, and `x = 4` still gives `7`. -/
theorem fold_regroup_value_chain :
    let x : Param := ⟨0, "x", .int32⟩
    let sum : Expr := .binary (.arith .addChecked) (.param x) (ofValue (.int32 2)) .int32
    let e : Expr := .binary (.arith .addChecked) (ofValue (.int32 1)) sum .int32
    e.fold.eval (.single 0 x (.int32 4)) = .ok (.int32 7) ∧
      e.regroup.eval (.single 0 x (.int32 4)) = .ok (.int32 7) := by
  intro x sum e
  have hsum : mkBinary (.arith .addChecked) (.param x) (ofValue (.int32 2)) = .ok sum := rfl
  have he : mkBinary (.arith .addChecked) (ofValue (.int32 1)) sum = .ok e := rfl
  have hbuilt : e.Built := .binary (.value _) (.binary (.param x) (.value _) hsum) he
  refine fold_regroup_value _ e hbuilt ?_ _ ?_
  · simp [e, sum, nodes, ofValue, isFloatSum, Ty.isFloat]
  · rfl

end Expr
end SeqQuery
