/-
# Folding leaves nothing of a closed expression but its value

Every kind of operation has its own test of whether its operands are constants, and a
node is simplified before it is evaluated. Neither stands in the way of a closed
expression: an operation is ready as soon as everything right below it is a constant
(`Expr.isReady_iff`), no chain can be regrouped around constants alone
(`Expr.regroup?_constants`), and a connective that comes down to a constant side has the
value of that side. So finishing an operation on constants that has a value gives this
value (`Expr.finish_constants`), and an expression folds to its value when everything in
it has one (`Expr.fold_eq_const`).

New records and the time of day are left as they are, so they are left out here. There
are no parameters either, as they have no value.

A filter whose predicate is closed and holds is told from others by its fold, and changes
nothing (`Source.filter_of_closed`).

Key definition: `Expr.isEvaluable`.
Key theorems: `Expr.isReady_iff`, `Expr.finish_constants`, `Expr.fold_eq_const`,
`Expr.fold_closed_constant`, `Source.filter_of_closed`.
-/
import SeqQuery.Proofs.Folding
import SeqQuery.Query.Compose

namespace SeqQuery
namespace Expr

/-- Constants, and the operations that folding may evaluate: all but new records and calls
whose value changes with the time. -/
def isEvaluable : Expr → Bool
  | .param _ | .construct _ _ _ => false
  | .call method _ _ => method.isPure
  | _ => true

theorem isEvaluable_mapChildren (g : Expr → Expr) (e : Expr) :
    (e.mapChildren g).isEvaluable = e.isEvaluable := by
  cases e <;> rfl

variable {e : Expr}

/-! ### A node over constants -/

/-- An operation is ready when everything right below it is a constant. -/
theorem isReady_iff : e.isReady ↔
    e.isConstant = false ∧ e.isEvaluable ∧ ∀ c ∈ e.children, c.isConstant := by
  cases e with
  | const v ty => simp [isReady, isConstant, constant?]
  | param p => simp [isReady, isEvaluable]
  | construct record es bs => simp [isReady, isEvaluable]
  | member e name ty => simp [isReady, isEvaluable, children, isConstant, constant?]
  | unary op e ty => simp [isReady, isEvaluable, children, isConstant, constant?]
  | binary op l r ty => simp [isReady, isEvaluable, children, isConstant, constant?]
  | cond t a b ty => simp [isReady, isEvaluable, children, isConstant, constant?, and_assoc]
  | call method es ty => simp [isReady, isEvaluable, children, isConstant, constant?]

/-- There is no chain of two operations where both sides are constants. -/
theorem regroup?_constants {op : BinaryOp} {l r : Expr} (hl : l.isConstant) (hr : r.isConstant) :
    regroup? op l r = none := by
  cases h : regroup? op l r with
  | none => rfl
  | some e' =>
    obtain ⟨outer, inner, hinner, honto⟩ := regroup?_eq_some h
    obtain ⟨-, -, l', r', ty, -, -, -, -, rfl, -⟩ := regroupOnto?_parts honto
    have hconst : (Expr.binary op l' r' ty).isConstant := by
      rcases List.mem_pair.mp hinner with rfl | rfl
      · exact hl
      · exact hr
    cases hconst

/-- All that an operation on constants is simplified to is one of the constants, which then
has its value. -/
theorem simplify?_constants {e' : Expr} (h : e.simplify? = some e')
    (hbelow : ∀ c ∈ e.children, c.isConstant) (env : Env) :
    e'.isConstant ∧ Refines env e env e' := by
  rcases simplify?_eq_some h with
    ⟨op, l, r, ty, side, rfl, hside, rfl⟩ | ⟨op, l, r, ty, rfl, -, hregroup⟩
  · refine ⟨?_, keptSide?_refines hside ty⟩
    cases side with
    | left => exact hbelow l (by simp [children])
    | right => exact hbelow r (by simp [children])
  · have hnone : regroup? op l r = none :=
      regroup?_constants (hbelow l (by simp [children])) (hbelow r (by simp [children]))
    rw [hnone] at hregroup
    cases hregroup

theorem evaluate?_of_isConstant (h : e.isConstant) : e.evaluate? = none := by
  obtain ⟨v, ty, rfl⟩ := isConstant_iff.mp h
  rfl

theorem evaluate?_of_isReady {v : Value} (h : e.isReady) (hv : e.eval .empty = .ok v) :
    e.evaluate? = some (.const v e.ty) := by
  rw [evaluate?, if_pos h, hv]

/-- A constant, or an operation on constants that has a value, is finished as this value. -/
theorem finish_constants {v : Value} (hc : e.Checked) (he : e.isEvaluable)
    (hbelow : ∀ c ∈ e.children, c.isConstant) (hv : e.eval .empty = .ok v) :
    e.finish = .const v e.ty := by
  cases hsimple : e.simplify? with
  | some e' =>
    obtain ⟨hconst, hvalue⟩ := simplify?_constants hsimple hbelow .empty
    obtain ⟨-, hty⟩ := simplify?_checked hsimple hc
    have hfinish : e.finish = e' := by
      simp [finish, hsimple, evaluate?_of_isConstant hconst]
    obtain ⟨w, ty, rfl⟩ := isConstant_iff.mp hconst
    obtain rfl : w = v := Except.ok.inj (hvalue v hv)
    rw [hfinish, ← hty]
    rfl
  | none =>
    cases hconst : e.isConstant with
    | true =>
      obtain ⟨w, ty, rfl⟩ := isConstant_iff.mp hconst
      obtain rfl : w = v := Except.ok.inj hv
      rfl
    | false =>
      have hready : e.isReady := isReady_iff.mpr ⟨hconst, he, hbelow⟩
      simp [finish, hsimple, evaluate?_of_isReady hready hv]

/-! ### Whole expressions -/

/-- What folds to its value is as good as the value in every node. -/
theorem Refines.of_fold_eq_const {v : Value} (hv : e.eval .empty = .ok v)
    (hfold : e.fold = .const v e.ty) : Refines .empty e .empty e.fold := by
  intro w hw
  rw [hfold, ← hw, hv, eval]

/-- An expression folds to its value when everything in it may be evaluated and has a value. -/
theorem fold_eq_const : e.Checked → e.All (fun n => n.isEvaluable) →
    e.All (fun n => ∃ v, n.eval .empty = .ok v) →
      ∃ v, e.eval .empty = .ok v ∧ e.fold = .const v e.ty := by
  induction e using children_induction with
  | h e ih =>
    intro hc hevaluable hvalues
    obtain ⟨hself, hevaluable⟩ := all_iff_children.mp hevaluable
    obtain ⟨⟨v, hv⟩, hvalues⟩ := all_iff_children.mp hvalues
    have hbelow : ∀ c ∈ e.children, ∃ w, c.eval .empty = .ok w ∧ c.fold = .const w c.ty :=
      fun c hmem => ih c hmem (hc.child c hmem) (hevaluable c hmem) (hvalues c hmem)
    -- the node over its folded parts is of the same type, and has the same value
    have hchecked : (e.mapChildren fold).Checked :=
      hc.mapChildren fun c hmem => fold_checked (hc.child c hmem)
    have hvalue : (e.mapChildren fold).eval .empty = .ok v := by
      refine refines_mapChildren (fun c hmem => ?_) v hv
      obtain ⟨w, hw, hfold⟩ := hbelow c hmem
      exact .of_fold_eq_const hw hfold
    have hconstants : ∀ c ∈ (e.mapChildren fold).children, c.isConstant := by
      rw [children_mapChildren, List.forall_mem_map]
      intro c hmem
      obtain ⟨w, -, hfold⟩ := hbelow c hmem
      rw [hfold]
      rfl
    refine ⟨v, hv, ?_⟩
    rw [fold_bottomUp e, ← ty_mapChildren fold e]
    exact finish_constants hchecked (isEvaluable_mapChildren fold e ▸ hself) hconstants hvalue

/-- An expression of constants, members, operators, choices and calls that do not depend on
the time folds to the constant of its value and type, when everything in it has a value. -/
theorem fold_closed_constant (e : Expr) (he : e.Built) (hevaluable : ∀ n ∈ e.nodes, n.isEvaluable)
    (hvalues : ∀ n ∈ e.nodes, ∃ v, n.eval .empty = .ok v) :
    ∃ v, e.eval .empty = .ok v ∧ e.fold = .const v e.ty :=
  fold_eq_const he.checked hevaluable hvalues

/-- `true && 1 + (r.n + 2) < 9 ? "yes" : "no"` is the text `"yes"` for a record with `n = 5`. -/
theorem fold_closed_constant_choice :
    let r : RecordTy := ⟨"R", .cons "n" .int32 .nil⟩
    let n : Expr := .member (ofValue (.record r [.int32 5])) "n" .int32
    let inner : Expr := .binary (.arith .addChecked) n (ofValue (.int32 2)) .int32
    let sum : Expr := .binary (.arith .addChecked) (ofValue (.int32 1)) inner .int32
    let small : Expr := .binary (.relation .lt) sum (ofValue (.int32 9)) .bool
    let test : Expr := .binary (.connective .and) (ofValue (.bool true)) small .bool
    let e : Expr := .cond test (ofValue (.string "yes")) (ofValue (.string "no")) .string
    e.eval .empty = .ok (.string "yes") ∧ e.fold = .const (.string "yes") .string := by
  intro r n inner sum small test e
  have hn : mkMember (ofValue (.record r [.int32 5])) "n" = .ok n := rfl
  have hinner : mkBinary (.arith .addChecked) n (ofValue (.int32 2)) = .ok inner := rfl
  have hsum : mkBinary (.arith .addChecked) (ofValue (.int32 1)) inner = .ok sum := rfl
  have hsmall : mkBinary (.relation .lt) sum (ofValue (.int32 9)) = .ok small := rfl
  have htest : mkBinary (.connective .and) (ofValue (.bool true)) small = .ok test := rfl
  have he : mkCond test (ofValue (.string "yes")) (ofValue (.string "no")) = .ok e := rfl
  have hbuilt : e.Built :=
    .cond (.binary (.value _) (.binary (.binary (.value _) (.binary (.member (.value _) hn)
      (.value _) hinner) hsum) (.value _) hsmall) htest) (.value _) (.value _) he
  have hevaluable : ∀ n ∈ e.nodes, n.isEvaluable := by
    simp [e, test, small, sum, inner, n, ofValue, nodes, isEvaluable]
  have hvalues : ∀ n ∈ e.nodes, ∃ v, n.eval .empty = .ok v := by
    simp only [e, test, small, sum, inner, n, ofValue, nodes, List.cons_append, List.nil_append,
      List.forall_mem_cons]
    exact ⟨⟨_, rfl⟩, ⟨_, rfl⟩, ⟨_, rfl⟩, ⟨_, rfl⟩, ⟨_, rfl⟩, ⟨_, rfl⟩, ⟨_, rfl⟩, ⟨_, rfl⟩,
      ⟨_, rfl⟩, ⟨_, rfl⟩, ⟨_, rfl⟩, ⟨_, rfl⟩, ⟨_, rfl⟩, List.forall_mem_nil _⟩
  have hyes : e.eval .empty = .ok (.string "yes") := rfl
  obtain ⟨v, hv, hfold⟩ := fold_closed_constant e hbuilt hevaluable hvalues
  obtain rfl : v = .string "yes" := Except.ok.inj (hv.symm.trans hyes)
  exact ⟨hyes, hfold⟩

end Expr

/-- A filter whose closed predicate holds changes nothing, whatever it is put on. -/
theorem Source.filter_of_closed {β σ : Type} (s : Source β σ) {p : Lambda}
    (hc : p.body.Checked) (hevaluable : p.body.All fun n => n.isEvaluable)
    (hvalues : p.body.All fun n => ∃ v, n.eval .empty = .ok v)
    (htrue : p.body.eval .empty = .ok (.bool true)) : s.filter p = .ok .unchanged := by
  obtain ⟨v, hv, hfold⟩ := Expr.fold_eq_const hc hevaluable hvalues
  obtain rfl : v = .bool true := Except.ok.inj (hv.symm.trans htrue)
  have hconst : p.fold.body.constantBool? = some true :=
    Expr.constantBool?_eq_some.mpr ⟨_, hfold⟩
  unfold Source.filter
  split
  · rfl
  · simp only [hconst, if_true]

end SeqQuery
