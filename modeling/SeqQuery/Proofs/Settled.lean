/-
# Folding settles an expression

Folding looks at each node once, after its parts, and a regrouped chain is not looked at
again. Whatever it gives has nothing left to fold all the same, unless checked sums or
products occur, whose constants may be unable to meet: the constant inside of a settled chain
has found no other constant behind it, or they would have been brought together, and numbers
of one type can always be brought together unchecked.

Every rewrite that folding makes leaves fewer operations behind (`Expr.operations`), and so
does every one that regrouping makes alone, so that nothing has been rewritten as soon as the
result is the same expression. This is proved once for rewrites that take operations away
(`Expr.Shrinks`).

Key definitions: `Expr.operations`, `Expr.Shrinks`.
Key theorems: `Expr.isSettled_iff`, `Expr.finish_operations`, `Expr.Shrinks.isDone_iff_eq`,
`Expr.fold_shrinks`, `Expr.isSettled_iff_fold_eq`, `Expr.regroup_shrinks`,
`Expr.isRegrouped_iff_regroup_eq`, `Expr.operations_eq_of_beq`, `Expr.finish_settled`,
`Expr.Over.fold_isSettled`.
-/
import Mathlib.Algebra.Order.BigOperators.Group.List
import Mathlib.Algebra.Order.Ring.Nat
import SeqQuery.Proofs.Rebuilding

namespace SeqQuery

/-! ### Unchecked sums and products -/

/-- Whether an operator adds or multiplies and refuses what does not fit. -/
def BinaryOp.isCheckedSum : BinaryOp → Bool
  | .arith op => op.isChecked
  | _ => false

theorem Value.isNumeric_of_admitsDeep {ty : Ty} {v : Value} (hty : ty.isNumeric)
    (hv : ty.admitsDeep v) : v.isNumeric := by
  rcases Ty.isNumeric_iff.mp hty with rfl | rfl | rfl | rfl
  · obtain ⟨n, rfl⟩ := Ty.admitsDeep_int32.mp hv
    rfl
  · obtain ⟨n, rfl⟩ := Ty.admitsDeep_int64.mp hv
    rfl
  · obtain ⟨x, rfl⟩ := Ty.admitsDeep_float32.mp hv
    rfl
  · obtain ⟨x, rfl⟩ := Ty.admitsDeep_float64.mp hv
    rfl

/-- Unchecked sums and products of numbers of one type always have a value. -/
theorem Arith.exists_apply {op : Arith} (hop : (BinaryOp.arith op).isAssociative)
    (hchecked : op.isChecked = false) {ty : Ty} (hty : ty.isNumeric) {v w : Value}
    (hv : ty.admitsDeep v) (hw : ty.admitsDeep w) : ∃ u, op.apply v w = .ok u ∧ u.ty = ty := by
  have hsum : op = .add ∨ op = .mul := by
    cases op <;> simp_all [BinaryOp.isAssociative, isChecked]
  rcases Ty.isNumeric_iff.mp hty with rfl | rfl | rfl | rfl
  · obtain ⟨m, rfl⟩ := Ty.admitsDeep_int32.mp hv
    obtain ⟨n, rfl⟩ := Ty.admitsDeep_int32.mp hw
    rcases hsum with rfl | rfl <;> exact ⟨_, rfl, rfl⟩
  · obtain ⟨m, rfl⟩ := Ty.admitsDeep_int64.mp hv
    obtain ⟨n, rfl⟩ := Ty.admitsDeep_int64.mp hw
    rcases hsum with rfl | rfl <;> exact ⟨_, rfl, rfl⟩
  · obtain ⟨x, rfl⟩ := Ty.admitsDeep_float32.mp hv
    obtain ⟨y, rfl⟩ := Ty.admitsDeep_float32.mp hw
    exact ⟨_, rfl, rfl⟩
  · obtain ⟨x, rfl⟩ := Ty.admitsDeep_float64.mp hv
    obtain ⟨y, rfl⟩ := Ty.admitsDeep_float64.mp hw
    exact ⟨_, rfl, rfl⟩

namespace Expr

variable {e : Expr}

/-! ### Settled expressions -/

theorem allSettled_iff : ∀ {es : List Expr}, allSettled es ↔ ∀ e ∈ es, e.isSettled
  | [] => by simp [allSettled]
  | _ :: _ => by simp [allSettled, allSettled_iff]

theorem bindingsSettled_iff : ∀ {bs : List (String × Expr)},
    bindingsSettled bs ↔ ∀ b ∈ bs, b.2.isSettled
  | [] => by simp [bindingsSettled]
  | (_, _) :: _ => by simp [bindingsSettled, bindingsSettled_iff]

/-- An expression is settled when what is right below it is and it is finished itself. -/
theorem isSettled_iff : e.isSettled ↔ (∀ c ∈ e.children, c.isSettled) ∧ e.isFinished := by
  cases e with
  | const v ty => simp [isSettled, children, isFinished, simplify?, evaluate?, isReady]
  | param p => simp [isSettled, children, isFinished, simplify?, evaluate?, isReady]
  | member e name ty => simp [isSettled, children]
  | unary op e ty => simp [isSettled, children]
  | binary op l r ty => simp [isSettled, children]
  | cond t a b ty => simp [isSettled, children, and_assoc]
  | call method es ty => simp [isSettled, children, allSettled_iff]
  | construct record es bs =>
    have hfinished : (Expr.construct record es bs).isFinished := rfl
    rw [isSettled, Bool.and_eq_true, allSettled_iff, bindingsSettled_iff, children,
      List.forall_mem_append, List.forall_mem_map, and_iff_left hfinished]

theorem isFinished_iff : e.isFinished ↔ e.simplify? = none ∧ e.evaluate? = none := by
  simp [isFinished]

theorem finish_of_isFinished (h : e.isFinished) : e.finish = e := by
  obtain ⟨hsimplify, hevaluate⟩ := isFinished_iff.mp h
  simp [finish, hsimplify, hevaluate]

theorem map_eq_self {α : Type} {g : α → α} {as : List α} (h : ∀ a ∈ as, g a = a) :
    as.map g = as :=
  (List.map_congr_left h).trans (List.map_id' as)

/-- A node over what is right below it already is the node itself. -/
theorem mapChildren_eq_self {g : Expr → Expr} (h : ∀ c ∈ e.children, g c = c) :
    e.mapChildren g = e := by
  cases e with
  | const v ty => rfl
  | param p => rfl
  | member e name ty => rw [mapChildren, h e (by simp [children])]
  | unary op e ty => rw [mapChildren, h e (by simp [children])]
  | binary op l r ty => rw [mapChildren, h l (by simp [children]), h r (by simp [children])]
  | cond t a b ty =>
    rw [mapChildren, h t (by simp [children]), h a (by simp [children]), h b (by simp [children])]
  | call method es ty =>
    have hes : ∀ e ∈ es, g e = e := h
    rw [mapChildren, map_eq_self hes]
  | construct record es bs =>
    have hes : ∀ e ∈ es, g e = e := fun e he => h e (List.mem_append_left _ he)
    have hbs : ∀ b ∈ bs, (b.1, g b.2) = b := fun b hb =>
      Prod.ext rfl (h b.2 (List.mem_append_right _ (List.mem_map_of_mem hb)))
    rw [mapChildren, map_eq_self hes, map_eq_self hbs]

/-! ### Counting operations -/

theorem nodesAll_eq_flatMap : ∀ es : List Expr, nodesAll es = es.flatMap nodes
  | [] => rfl
  | e :: es => by rw [nodesAll, nodesAll_eq_flatMap es, List.flatMap_cons]

theorem nodesBindings_eq_flatMap : ∀ bs : List (String × Expr),
    nodesBindings bs = bs.flatMap fun b => b.2.nodes
  | [] => rfl
  | (name, e) :: bs => by rw [nodesBindings, nodesBindings_eq_flatMap bs, List.flatMap_cons]

/-- An expression and what is below it. -/
theorem nodes_eq (e : Expr) : e.nodes = e :: e.children.flatMap nodes := by
  cases e with
  | call method es ty => rw [nodes, nodesAll_eq_flatMap, children]
  | construct record es bs =>
    rw [nodes, nodesAll_eq_flatMap, nodesBindings_eq_flatMap, children, List.flatMap_append,
      List.flatMap_map]
  | _ => simp [nodes, children]

/-- The number of nodes that are no constants. -/
def operations (e : Expr) : Nat :=
  e.nodes.countP fun n => !n.isConstant

theorem operations_eq (e : Expr) :
    e.operations = (e.children.map operations).sum + if e.isConstant then 0 else 1 := by
  rw [operations, nodes_eq, List.countP_cons, List.countP_flatMap]
  cases e.isConstant <;> rfl

theorem operations_const (v : Value) (ty : Ty) : (Expr.const v ty).operations = 0 := rfl

theorem operations_binary (op : BinaryOp) (l r : Expr) (ty : Ty) :
    (Expr.binary op l r ty).operations = l.operations + r.operations + 1 := by
  simp [operations_eq (.binary op l r ty), children, isConstant, constant?]

theorem regroupOnto?_operations {op : BinaryOp} {outer inner e' : Expr}
    (h : regroupOnto? op outer inner = some e') : e'.operations ≤ inner.operations := by
  obtain ⟨c, s, l, r, ty, d, rest, cd, -, rfl, hrest, -, hmk⟩ := regroupOnto?_eq_some h
  obtain ⟨ty', -, rfl⟩ := mkBinary_eq_ok.mp hmk
  rw [operations_binary, operations_binary, ofValue, operations_const]
  rcases hrest with ⟨t, rfl, rfl⟩ | ⟨t, rfl, rfl⟩ <;> omega

/-- A regrouped chain has fewer operations. -/
theorem regroup?_operations {op : BinaryOp} {l r e' : Expr} (h : regroup? op l r = some e')
    (ty : Ty) : e'.operations < (Expr.binary op l r ty).operations := by
  obtain ⟨outer, inner, hinner, honto⟩ := regroup?_eq_some h
  have hle := regroupOnto?_operations honto
  rw [operations_binary]
  rcases List.mem_pair.mp hinner with rfl | rfl <;> omega

/-- A simplified node has fewer operations. -/
theorem simplify?_operations {e' : Expr} (h : e.simplify? = some e') :
    e'.operations < e.operations := by
  rcases simplify?_eq_some h with
    ⟨op, l, r, ty, side, rfl, -, rfl⟩ | ⟨op, l, r, ty, rfl, -, hregroup⟩
  · rw [operations_binary]
    cases side <;> simp only [Side.choose] <;> omega
  · exact regroup?_operations hregroup ty

theorem isConstant_eq_false_of_isReady (h : e.isReady) : e.isConstant = false := by
  cases e <;> first | rfl | cases h

/-- An operation on constants that is evaluated is none afterwards. -/
theorem evaluate?_operations {e' : Expr} (h : e.evaluate? = some e') :
    e'.operations < e.operations := by
  obtain ⟨hready, v, -, rfl⟩ := evaluate?_eq_some h
  rw [operations_const, operations_eq, isConstant_eq_false_of_isReady hready]
  exact Nat.succ_pos _

/-- Finishing a node that is not finished takes operations away. -/
theorem finish_operations (e : Expr) : e.isFinished ∨ e.finish.operations < e.operations := by
  unfold finish
  simp only
  cases hsimplify : e.simplify? with
  | none =>
    rw [Option.getD_none]
    cases hevaluate : e.evaluate? with
    | none => exact .inl (isFinished_iff.mpr ⟨hsimplify, hevaluate⟩)
    | some e' => exact .inr (evaluate?_operations hevaluate)
  | some s =>
    have hs := simplify?_operations hsimplify
    rw [Option.getD_some]
    right
    cases hevaluate : s.evaluate? with
    | none => exact hs
    | some e' => exact (evaluate?_operations hevaluate).trans hs

theorem operations_mapChildren (g : Expr → Expr) (e : Expr) : (e.mapChildren g).operations =
    (e.children.map fun c => (g c).operations).sum + if e.isConstant then 0 else 1 := by
  have hconst : (e.mapChildren g).isConstant = e.isConstant := by
    cases e <;> rfl
  rw [operations_eq, hconst, children_mapChildren, List.map_map]
  rfl

/-! ### Rewrites that take operations away -/

/-- A rewrite from the leaves up whose step leaves a node alone or takes operations away, and a
test for the expressions in which the step leaves every node alone. -/
structure Shrinks (step rewrite : Expr → Expr) (isDone : Expr → Bool) : Prop where
  bottomUp : BottomUp step rewrite
  step_operations : ∀ e, step e = e ∨ (step e).operations < e.operations
  isDone_iff : ∀ e, isDone e ↔ (∀ c ∈ e.children, isDone c) ∧ step e = e

namespace Shrinks

variable {step rewrite : Expr → Expr} {isDone : Expr → Bool}

theorem rewrite_eq (h : Shrinks step rewrite isDone) (e : Expr) : isDone e → rewrite e = e := by
  induction e using children_induction with
  | h e ih =>
    intro hdone
    obtain ⟨hbelow, hself⟩ := (h.isDone_iff e).mp hdone
    rw [h.bottomUp e, mapChildren_eq_self fun c hmem => ih c hmem (hbelow c hmem), hself]

/-- An expression in which something is left to do loses operations. -/
theorem rewrite_operations (h : Shrinks step rewrite isDone) (e : Expr) :
    isDone e ∨ (rewrite e).operations < e.operations := by
  induction e using children_induction with
  | h e ih =>
    rw [h.bottomUp e]
    by_cases hbelow : ∀ c ∈ e.children, isDone c
    · rw [mapChildren_eq_self fun c hmem => h.rewrite_eq c (hbelow c hmem)]
      exact (h.step_operations e).imp_left fun hself => (h.isDone_iff e).mpr ⟨hbelow, hself⟩
    · -- something below loses operations, and the node wins none
      push Not at hbelow
      obtain ⟨c, hmem, hc⟩ := hbelow
      have hle : ∀ c ∈ e.children, (rewrite c).operations ≤ c.operations := by
        intro c hmem
        rcases ih c hmem with hc | hc
        · rw [h.rewrite_eq c hc]
        · exact hc.le
      have hlt : (rewrite c).operations < c.operations := (ih c hmem).resolve_left hc
      have hstep : ∀ e, (step e).operations ≤ e.operations := by
        intro e
        rcases h.step_operations e with hself | hlt
        · rw [hself]
        · exact hlt.le
      right
      calc (step (e.mapChildren rewrite)).operations
          ≤ (e.mapChildren rewrite).operations := hstep _
        _ = (e.children.map fun c => (rewrite c).operations).sum + _ :=
          operations_mapChildren rewrite e
        _ < (e.children.map operations).sum + _ :=
          Nat.add_lt_add_right (List.sum_lt_sum _ _ hle ⟨c, hmem, hlt⟩) _
        _ = e.operations := (operations_eq e).symm

/-- Nothing is left to do in an expression exactly when the rewrite gives the same expression. -/
theorem isDone_iff_eq (h : Shrinks step rewrite isDone) (e : Expr) :
    isDone e ↔ rewrite e = e := by
  refine ⟨h.rewrite_eq e, fun heq => (h.rewrite_operations e).resolve_right ?_⟩
  rw [heq]
  exact lt_irrefl _

end Shrinks

/-! ### Folding -/

theorem isFinished_iff_finish_eq : e.isFinished ↔ e.finish = e := by
  refine ⟨finish_of_isFinished, fun h => (finish_operations e).resolve_right ?_⟩
  rw [h]
  exact lt_irrefl _

theorem fold_shrinks : Shrinks finish fold isSettled where
  bottomUp := fold_bottomUp
  step_operations e := (finish_operations e).imp_left finish_of_isFinished
  isDone_iff e := by rw [← isFinished_iff_finish_eq, isSettled_iff]

/-- Folding leaves a settled expression as it is. -/
theorem fold_eq_of_isSettled : e.isSettled → e.fold = e :=
  fold_shrinks.rewrite_eq e

/-- An expression is settled exactly when folding gives the same expression. -/
theorem isSettled_iff_fold_eq : e.isSettled ↔ e.fold = e :=
  fold_shrinks.isDone_iff_eq e

/-! ### Regrouping alone -/

theorem allRegrouped_iff : ∀ {es : List Expr}, allRegrouped es ↔ ∀ e ∈ es, e.isRegrouped
  | [] => by simp [allRegrouped]
  | _ :: _ => by simp [allRegrouped, allRegrouped_iff]

theorem bindingsRegrouped_iff : ∀ {bs : List (String × Expr)},
    bindingsRegrouped bs ↔ ∀ b ∈ bs, b.2.isRegrouped
  | [] => by simp [bindingsRegrouped]
  | (_, _) :: _ => by simp [bindingsRegrouped, bindingsRegrouped_iff]

theorem regroupStep_operations (e : Expr) :
    e.regroupStep = e ∨ e.regroupStep.operations < e.operations := by
  cases e with
  | binary op l r ty =>
    rw [regroupStep_binary]
    cases hregroup : if op.isAssociative then regroup? op l r else none with
    | none => exact .inl rfl
    | some e' => exact .inr (regroup?_operations (Option.ite_none_right_eq_some.mp hregroup).2 ty)
  | _ => exact .inl rfl

/-- A node is left alone when it is no chain of an associative operator with constants to bring
together. -/
theorem regroupStep_binary_eq_self {op : BinaryOp} {l r : Expr} {ty : Ty} :
    (Expr.binary op l r ty).regroupStep = .binary op l r ty ↔
      (op.isAssociative → regroup? op l r = none) := by
  rw [regroupStep_binary]
  constructor
  · intro heq hop
    rw [if_pos hop] at heq
    cases hregroup : regroup? op l r with
    | none => rfl
    | some e' =>
      -- the chain would have fewer operations than itself
      rw [hregroup, Option.getD_some] at heq
      exact absurd (regroup?_operations hregroup ty) (heq ▸ lt_irrefl _)
  · intro hnone
    by_cases hop : op.isAssociative
    · rw [if_pos hop, hnone hop, Option.getD_none]
    · rw [if_neg hop, Option.getD_none]

/-- An expression is regrouped when what is right below it is and it is left alone itself. -/
theorem isRegrouped_iff :
    e.isRegrouped ↔ (∀ c ∈ e.children, c.isRegrouped) ∧ e.regroupStep = e := by
  cases e with
  | const v ty => simp [isRegrouped, children, regroupStep]
  | param p => simp [isRegrouped, children, regroupStep]
  | member e name ty => simp [isRegrouped, children, regroupStep]
  | unary op e ty => simp [isRegrouped, children, regroupStep]
  | binary op l r ty =>
    have hself : (!(op.isAssociative && (regroup? op l r).isSome)) = true ↔
        (op.isAssociative → regroup? op l r = none) := by
      cases op.isAssociative <;> simp
    rw [isRegrouped, Bool.and_eq_true, Bool.and_eq_true, hself, regroupStep_binary_eq_self]
    simp [children]
  | cond t a b ty => simp [isRegrouped, children, regroupStep, and_assoc]
  | call method es ty => simp [isRegrouped, children, regroupStep, allRegrouped_iff]
  | construct record es bs =>
    have hstep : (Expr.construct record es bs).regroupStep = .construct record es bs := rfl
    rw [isRegrouped, Bool.and_eq_true, allRegrouped_iff, bindingsRegrouped_iff, children,
      List.forall_mem_append, List.forall_mem_map, and_iff_left hstep]

theorem regroup_shrinks : Shrinks regroupStep regroup isRegrouped where
  bottomUp := regroup_bottomUp
  step_operations := regroupStep_operations
  isDone_iff _ := isRegrouped_iff

/-- An expression is regrouped exactly when regrouping gives the same expression. -/
theorem isRegrouped_iff_regroup_eq : e.isRegrouped ↔ e.regroup = e :=
  regroup_shrinks.isDone_iff_eq e

/-! ### Equal expressions -/

theorem beqAll_iff : ∀ {es fs : List Expr},
    beqAll es fs ↔ List.Forall₂ (fun e f => beq e f = true) es fs
  | [], [] => by simp [beqAll]
  | [], _ :: _ => by simp [beqAll]
  | _ :: _, [] => by simp [beqAll]
  | _ :: _, _ :: _ => by simp [beqAll, beqAll_iff]

theorem forall₂_of_beqBindings : ∀ {bs cs : List (String × Expr)}, beqBindings bs cs →
    List.Forall₂ (fun e f => beq e f = true) (bs.map (·.2)) (cs.map (·.2))
  | [], [], _ => .nil
  | (m, e) :: bs, (n, f) :: cs, h => by
    simp only [beqBindings, Bool.and_eq_true] at h
    exact .cons h.1.2 (forall₂_of_beqBindings h.2)

/-- Equal expressions are constants together and have equal expressions right below. -/
theorem children_of_beq {f : Expr} (h : beq e f) : e.isConstant = f.isConstant ∧
    List.Forall₂ (fun c d => beq c d = true) e.children f.children := by
  unfold beq at h
  split at h
  · exact ⟨rfl, .nil⟩
  · exact ⟨rfl, .nil⟩
  · simp only [Bool.and_eq_true] at h
    exact ⟨rfl, .cons h.1.1 .nil⟩
  · simp only [Bool.and_eq_true] at h
    exact ⟨rfl, .cons h.1.2 .nil⟩
  · simp only [Bool.and_eq_true] at h
    exact ⟨rfl, .cons h.1.1.2 (.cons h.1.2 .nil)⟩
  · simp only [Bool.and_eq_true] at h
    exact ⟨rfl, .cons h.1.1.1 (.cons h.1.1.2 (.cons h.1.2 .nil))⟩
  · simp only [Bool.and_eq_true] at h
    exact ⟨rfl, beqAll_iff.mp h.1.2⟩
  · simp only [Bool.and_eq_true] at h
    exact ⟨rfl, List.rel_append (beqAll_iff.mp h.1.2) (forall₂_of_beqBindings h.2)⟩
  · cases h

/-- Equal expressions have equally many operations. -/
theorem operations_eq_of_beq : ∀ {f : Expr}, beq e f → e.operations = f.operations := by
  induction e using children_induction with
  | h e ih =>
    intro f h
    obtain ⟨hconst, hchildren⟩ := children_of_beq h
    have hsame : List.Forall₂ (fun c d => c.operations = d.operations) e.children f.children :=
      Outcome.forall₂_imp_mem hchildren fun c hmem d hd => ih c hmem hd
    have hmaps : e.children.map operations = f.children.map operations := by
      rw [← List.forall₂_eq_eq_eq, List.forall₂_map_left_iff, List.forall₂_map_right_iff]
      exact hsame
    rw [operations_eq e, operations_eq f, hmaps, hconst]

/-- An expression that folding gives back in an equal form is settled. -/
theorem isSettled_of_fold_beq (h : e.fold == e) : e.isSettled := by
  refine (fold_shrinks.rewrite_operations e).resolve_right ?_
  rw [operations_eq_of_beq h]
  exact lt_irrefl _

/-! ### A regrouped chain has nothing left to regroup -/

variable {op : Arith} {l r rest : Expr} {ty : Ty} {d : Value}

/-- The constant of an inner operation and what is beside it are of the operation's type, a
numeric one. -/
theorem Over.constantAndRest {allowed : BinaryOp → Prop}
    (h : (Expr.binary (.arith op) l r ty).Over (.deepConstants allowed))
    (hrest : constantAndRest? l r = some (d, rest)) :
    ty.isNumeric ∧ ty.admitsDeep d ∧ rest.ty = ty ∧ rest.Over (.deepConstants allowed) := by
  obtain ⟨hnum, hlr, rfl⟩ := BinaryOp.resultTy_arith.mp h.checked.2.2
  obtain ⟨hl, hr⟩ := h.binary
  rcases constantAndRest?_eq_some hrest with ⟨t, rfl, rfl⟩ | ⟨t, rfl, rfl⟩
  · exact ⟨hnum, all_const.mp hl.allowed, hlr.symm, hr⟩
  · have hd : t.admitsDeep d := all_const.mp hr.allowed
    replace hlr : l.ty = t := hlr
    exact ⟨hnum, hlr ▸ hd, rfl, hl⟩

/-- Two numbers of one type in an unchecked chain can be brought together. -/
theorem exists_regroupOnto? (hop : (BinaryOp.arith op).isAssociative)
    (hchecked : op.isChecked = false) {c : Value} (hty : ty.isNumeric) (hc : ty.admitsDeep c)
    (hd : ty.admitsDeep d) (hrestty : rest.ty = ty) (hrest : constantAndRest? l r = some (d, rest))
    (s t : Ty) :
    ∃ e, regroupOnto? (.arith op) (.const c s) (.binary (.arith op) l r t) = some e := by
  obtain ⟨cd, hcd, hcdty⟩ := Arith.exists_apply hop hchecked hty hc hd
  have hmk : mkBinary (.arith op) rest (ofValue cd) =
      .ok (.binary (.arith op) rest (ofValue cd) ty) := by
    refine mkBinary_eq_ok.mpr ⟨ty, BinaryOp.resultTy_arith.mpr ?_, rfl⟩
    rw [hrestty]
    exact ⟨hty, hcdty.symm, rfl⟩
  have happly : (BinaryOp.arith op).apply c d = .ok cd := hcd
  refine ⟨.binary (.arith op) rest (ofValue cd) ty, ?_⟩
  simp [regroupOnto?, constant?, Value.isNumeric_of_admitsDeep hty hc, hrest, happly, hmk, ofBuild?]

/-- Behind the constant of a settled unchecked chain no other constant can be regrouped. -/
theorem regroupOnto?_rest_eq_none (hop : (BinaryOp.arith op).isAssociative)
    (hinner : (Expr.binary (.arith op) l r ty).Over
      (.deepConstants fun op => op.isCheckedSum = false))
    (hsettled : (Expr.binary (.arith op) l r ty).isSettled)
    (hrest : constantAndRest? l r = some (d, rest)) (outer : Expr) :
    regroupOnto? (.arith op) outer rest = none := by
  by_contra hsome
  obtain ⟨e', h⟩ := Option.ne_none_iff_exists'.mp hsome
  obtain ⟨c, s, l', r', ty', d', rest', -, -, rfl, hrest', -, -⟩ := regroupOnto?_parts h
  have hchecked : op.isChecked = false := hinner.allowed.self
  obtain ⟨-, hd, hty, hover⟩ := hinner.constantAndRest hrest
  obtain ⟨hnum, hd', hty', -⟩ := hover.constantAndRest hrest'
  obtain rfl : ty' = ty := hty
  -- so the constant of the chain meets the one behind it
  have hregroup : regroup? (.arith op) l r = none := by
    have hsimplify := (isFinished_iff.mp (isSettled_iff.mp hsettled).2).1
    rwa [simplify?, if_pos hop] at hsimplify
    nofun
  obtain ⟨hleft, hright⟩ := Option.or_eq_none_iff.mp hregroup
  rcases constantAndRest?_eq_some hrest with ⟨t, rfl, rfl⟩ | ⟨t, rfl, rfl⟩
  · obtain ⟨e', h'⟩ := exists_regroupOnto? hop hchecked hnum hd hd' hty' hrest' t ty'
    rw [h'] at hleft
    cases hleft
  · obtain ⟨e', h'⟩ := exists_regroupOnto? hop hchecked hnum hd hd' hty' hrest' t ty'
    rw [h'] at hright
    cases hright

/-- What a settled unchecked chain is regrouped to has nothing left to simplify, and its
parts are settled. -/
theorem regroupOnto?_settled (hop : (BinaryOp.arith op).isAssociative) {outer inner e' : Expr}
    (h : regroupOnto? (.arith op) outer inner = some e')
    (hinner : inner.Over (.deepConstants fun op => op.isCheckedSum = false))
    (hsettled : inner.isSettled) : e'.simplify? = none ∧ ∀ c ∈ e'.children, c.isSettled := by
  obtain ⟨c, s, l, r, ty, d, rest, cd, -, rfl, hrest, -, hmk⟩ := regroupOnto?_parts h
  obtain ⟨ty', -, rfl⟩ := mkBinary_eq_ok.mp hmk
  constructor
  · -- neither onto the combined constant, which is no operation, nor onto the rest
    have hnone : regroup? (.arith op) rest (ofValue cd) = none := by
      rw [regroup?, regroupOnto?_rest_eq_none hop hinner hsettled hrest, Option.or_none]
      unfold regroupOnto? ofValue
      cases rest.constant? <;> rfl
    rw [simplify?, if_pos hop, hnone]
    nofun
  · have hparts : ∀ c ∈ [l, r], c.isSettled := (isSettled_iff.mp hsettled).1
    have hrestsettled : rest.isSettled := by
      rcases constantAndRest?_eq_some hrest with ⟨t, -, rfl⟩ | ⟨t, -, rfl⟩
      · exact hparts r (by simp)
      · exact hparts l (by simp)
    intro c hmem
    rcases List.mem_pair.mp hmem with rfl | rfl
    · exact hrestsettled
    · rfl

/-- Finishing a node over settled expressions settles it, where nothing is added or multiplied
with a check. -/
theorem finish_settled (he : e.Over (.deepConstants fun op => op.isCheckedSum = false))
    (hbelow : ∀ c ∈ e.children, c.isSettled) : e.finish.isSettled := by
  have hsimpler : (e.simplify?.getD e).isSettled ∨ (e.simplify?.getD e).simplify? = none ∧
      ∀ c ∈ (e.simplify?.getD e).children, c.isSettled := by
    cases hsimplify : e.simplify? with
    | none => exact .inr ⟨hsimplify, hbelow⟩
    | some e' =>
      rcases simplify?_eq_some hsimplify with
        ⟨op, l, r, ty, side, rfl, -, rfl⟩ | ⟨op, l, r, ty, rfl, hop, hregroup⟩
      · left
        cases side with
        | left => exact hbelow l (by simp [children])
        | right => exact hbelow r (by simp [children])
      · right
        obtain ⟨outer, inner, hinner, honto⟩ := regroup?_eq_some hregroup
        cases op with
        | arith op =>
          exact regroupOnto?_settled hop honto (he.child inner hinner) (hbelow inner hinner)
        | _ => cases hop
  unfold finish
  simp only
  cases hevaluate : (e.simplify?.getD e).evaluate? with
  | none =>
    rw [Option.getD_none]
    rcases hsimpler with hsettled | ⟨hsimplify, hparts⟩
    · exact hsettled
    · exact isSettled_iff.mpr ⟨hparts, isFinished_iff.mpr ⟨hsimplify, hevaluate⟩⟩
  | some e' =>
    obtain ⟨-, v, -, rfl⟩ := evaluate?_eq_some hevaluate
    rfl

/-- Folding settles an expression in which nothing is added or multiplied with a check. -/
theorem Over.fold_isSettled : e.Over (.deepConstants fun op => op.isCheckedSum = false) →
    e.fold.isSettled := by
  induction e using children_induction with
  | h e ih =>
    intro he
    rw [fold_bottomUp e]
    refine finish_settled (he.mapChildren_fold Vocabulary.closed_deepConstants) ?_
    rw [children_mapChildren, List.forall_mem_map]
    exact fun c hmem => ih c hmem (he.child c hmem)

/-- In `-5 + (2147483647 + (x + 1))` the inner constants cannot meet with a check, but what
folding makes of it can be folded once more. -/
example :
    let sum (l r : Expr) : Expr := .binary (.arith .addChecked) l r .int32
    let number (n : Int32) : Expr := ofValue (.int32 n)
    let x : Expr := .param ⟨0, "x", .int32⟩
    let e := sum (number (-5)) (sum (number 2147483647) (sum x (number 1)))
    e.fold = sum (sum x (number 1)) (number 2147483642) ∧
      e.fold.fold = sum x (number 2147483643) :=
  ⟨rfl, rfl⟩

end Expr
end SeqQuery
