/-
# Evaluation, node by node

Expressions hold lists of operands, so the induction that Lean makes for them speaks of
three kinds of lists. `Expr.induction` is the one that is used instead: a call or a new
record has the hypothesis for each of its operands. What the mutual functions do to a
list of operands is said once in the operators of lists (`evalAll_eq_mapM`), and both
connectives evaluate by one equation (`eval_connective`).

`Expr.nodes` lists an expression with everything below it, and `Expr.All` says that
something holds at each of these nodes.

`Expr.Refines` compares the values of two expressions and is kept by every kind of node.

Key definitions: `Connective.stop`, `BinaryOp.isStrict`, `Expr.Refines`, `Expr.nodes`,
`Expr.All`.
Key theorems: `Expr.induction`, `Expr.evalAll_eq_ok`, `Expr.evalBindings_eq_ok`,
`Expr.eval_connective`, `Expr.eval_strict`, `Expr.Refines.binary`, `Expr.Refines.call`.
-/
import SeqQuery.Expr.Eval
import SeqQuery.Proofs.Outcome

namespace SeqQuery

/-- The Boolean on the left side that decides a connective. -/
def Connective.stop : Connective → Bool
  | .and => false
  | .or => true

/-- The operators that evaluate both sides before anything else. -/
def BinaryOp.isStrict : BinaryOp → Bool
  | .connective _ => false
  | _ => true

theorem BinaryOp.isStrict_eq_false {op : BinaryOp} :
    op.isStrict = false ↔ ∃ c, op = .connective c := by
  cases op <;> simp [isStrict]

namespace Expr

/-- Induction on an expression, with the hypothesis for every operand of a call and for
everything that sets a field of a new record. -/
@[elab_as_elim, induction_eliminator]
theorem induction {motive : Expr → Prop}
    (const : ∀ v ty, motive (.const v ty))
    (param : ∀ p, motive (.param p))
    (member : ∀ e name ty, motive e → motive (.member e name ty))
    (unary : ∀ op e ty, motive e → motive (.unary op e ty))
    (binary : ∀ op l r ty, motive l → motive r → motive (.binary op l r ty))
    (cond : ∀ t a b ty, motive t → motive a → motive b → motive (.cond t a b ty))
    (call : ∀ method es ty, (∀ e ∈ es, motive e) → motive (.call method es ty))
    (construct : ∀ record es bs, (∀ e ∈ es, motive e) → (∀ b ∈ bs, motive b.2) →
      motive (.construct record es bs)) :
    ∀ e, motive e
  | .const v ty => const v ty
  | .param p => param p
  | .member e name ty =>
    member e name ty (induction const param member unary binary cond call construct e)
  | .unary op e ty =>
    unary op e ty (induction const param member unary binary cond call construct e)
  | .binary op l r ty =>
    binary op l r ty (induction const param member unary binary cond call construct l)
      (induction const param member unary binary cond call construct r)
  | .cond t a b ty =>
    cond t a b ty (induction const param member unary binary cond call construct t)
      (induction const param member unary binary cond call construct a)
      (induction const param member unary binary cond call construct b)
  | .call method es ty =>
    call method es ty fun e _ => induction const param member unary binary cond call construct e
  | .construct record es bs =>
    construct record es bs
      (fun e _ => induction const param member unary binary cond call construct e)
      (fun b _ => induction const param member unary binary cond call construct b.2)
termination_by e => sizeOf e
decreasing_by
  all_goals simp_wf
  all_goals try omega
  · have := List.sizeOf_lt_of_mem ‹_ ∈ es›
    omega
  · have := List.sizeOf_lt_of_mem ‹_ ∈ es›
    omega
  · have := List.sizeOf_lt_of_mem ‹b ∈ bs›
    have : sizeOf b = 1 + sizeOf b.1 + sizeOf b.2 := by
      cases b
      simp
    omega

variable (env : Env)

/-! ### Lists of operands -/

theorem evalAll_eq_mapM : ∀ es : List Expr, evalAll env es = es.mapM (eval env)
  | [] => rfl
  | e :: es => by
    rw [List.mapM_cons, ← evalAll_eq_mapM es]
    rfl

/-- Operands evaluate to a list exactly when each evaluates to its value. -/
theorem evalAll_eq_ok {es : List Expr} {vs : List Value} :
    evalAll env es = .ok vs ↔ List.Forall₂ (fun e v => eval env e = .ok v) es vs := by
  rw [evalAll_eq_mapM, Outcome.mapM_eq_ok]

theorem evalBindings_eq_mapM : ∀ bs : List (String × Expr),
    evalBindings env bs = bs.mapM fun b => (eval env b.2).map (b.1, ·)
  | [] => rfl
  | (name, e) :: bs => by
    rw [List.mapM_cons, ← evalBindings_eq_mapM bs]
    show (eval env e >>= fun v => evalBindings env bs >>= fun ws => .ok ((name, v) :: ws)) = _
    cases eval env e <;> rfl

/-- Named expressions evaluate to a list exactly when each evaluates to its value. -/
theorem evalBindings_eq_ok {bs : List (String × Expr)} {ws : List (String × Value)} :
    evalBindings env bs = .ok ws ↔
      List.Forall₂ (fun b w => b.1 = w.1 ∧ eval env b.2 = .ok w.2) bs ws := by
  rw [evalBindings_eq_mapM, Outcome.mapM_named_eq_ok]

/-! ### Nodes -/

theorem eval_member (e : Expr) (name : String) (ty : Ty) :
    eval env (.member e name ty) = (do (← eval env e).readMember name) := rfl

theorem eval_unary (op : UnaryOp) (e : Expr) (ty : Ty) :
    eval env (.unary op e ty) = (do op.apply (← eval env e)) := rfl

/-- A connective is decided by its left side, or else by its right side. -/
theorem eval_connective (op : Connective) (l r : Expr) (ty : Ty) :
    eval env (.binary (.connective op) l r ty) =
      (do
        let a ← evalBool env l
        if a = op.stop then .ok (.bool a) else (evalBool env r).map .bool) := by
  have hright : (evalBool env r).map Value.bool =
      (do
        let b ← (← eval env r).expectBool
        .ok (.bool b)) := by
    unfold evalBool
    cases eval env r with
    | error e => rfl
    | ok w =>
      show w.expectBool.map Value.bool = (w.expectBool >>= fun b => .ok (.bool b))
      cases w.expectBool <;> rfl
  rw [hright]
  unfold evalBool
  cases op
  all_goals
    show (eval env l >>= fun v => v.expectBool >>= fun a => _) = _
    cases eval env l with
    | error e => rfl
    | ok v =>
      rw [Outcome.ok_bind, Outcome.ok_bind]
      cases v.expectBool with
      | error e => rfl
      | ok a => cases a <;> rfl

theorem eval_cond (t a b : Expr) (ty : Ty) :
    eval env (.cond t a b ty) =
      (do if (← evalBool env t) then eval env a else eval env b) := by
  show (eval env t >>= fun v => v.expectBool >>= fun c => _) = _
  unfold evalBool
  cases eval env t <;> rfl

theorem eval_strict {op : BinaryOp} (h : op.isStrict) (l r : Expr) (ty : Ty) :
    eval env (.binary op l r ty) =
      (do
        let v ← eval env l
        let w ← eval env r
        op.apply v w) := by
  cases op <;> first | rfl | cases h

theorem eval_call (method : Method) (es : List Expr) (ty : Ty) :
    eval env (.call method es ty) =
      (do
        let vs ← evalAll env es
        method.apply env.now (method.split vs).1 (method.split vs).2) := rfl

theorem eval_construct (record : RecordTy) (es : List Expr) (bs : List (String × Expr)) :
    eval env (.construct record es bs) =
      (do
        let vs ← evalAll env es
        let ws ← evalBindings env bs
        record.build vs ws) := rfl

/-! ### Expressions with the values of others -/

/-- An expression has, under an environment of its own, the value of another whenever that
has one. -/
def Refines (env : Env) (e : Expr) (env' : Env) (e' : Expr) : Prop :=
  ∀ v, e.eval env = .ok v → e'.eval env' = .ok v

namespace Refines

variable {env} {env' : Env}

theorem refl (e : Expr) : Refines env e env e := fun _ h => h

theorem trans {env'' : Env} {e e' e'' : Expr} (h : Refines env e env' e')
    (h' : Refines env' e' env'' e'') : Refines env e env'' e'' :=
  fun v hv => h' v (h v hv)

theorem evalBool {e e' : Expr} (h : Refines env e env' e') {b : Bool}
    (hb : e.evalBool env = .ok b) : e'.evalBool env' = .ok b := by
  obtain ⟨v, hv, hb⟩ := Outcome.bind_eq_ok.mp hb
  exact Outcome.bind_eq_ok.mpr ⟨v, h v hv, hb⟩

theorem member {e e' : Expr} (h : Refines env e env' e') (name : String) (ty ty' : Ty) :
    Refines env (.member e name ty) env' (.member e' name ty') := by
  intro v hv
  rw [eval_member, Outcome.bind_eq_ok] at hv ⊢
  obtain ⟨w, hw, hv⟩ := hv
  exact ⟨w, h w hw, hv⟩

theorem unary {e e' : Expr} (h : Refines env e env' e') (op : UnaryOp) (ty ty' : Ty) :
    Refines env (.unary op e ty) env' (.unary op e' ty') := by
  intro v hv
  rw [eval_unary, Outcome.bind_eq_ok] at hv ⊢
  obtain ⟨w, hw, hv⟩ := hv
  exact ⟨w, h w hw, hv⟩

theorem binary {l l' r r' : Expr} (hl : Refines env l env' l') (hr : Refines env r env' r')
    (op : BinaryOp) (ty ty' : Ty) :
    Refines env (.binary op l r ty) env' (.binary op l' r' ty') := by
  intro v hv
  cases hop : op.isStrict with
  | true =>
    rw [eval_strict _ hop, Outcome.bind_eq_ok] at hv ⊢
    obtain ⟨a, ha, hv⟩ := hv
    obtain ⟨b, hb, hv⟩ := Outcome.bind_eq_ok.mp hv
    exact ⟨a, hl a ha, Outcome.bind_eq_ok.mpr ⟨b, hr b hb, hv⟩⟩
  | false =>
    obtain ⟨op, rfl⟩ := BinaryOp.isStrict_eq_false.mp hop
    rw [eval_connective, Outcome.bind_eq_ok] at hv ⊢
    obtain ⟨a, ha, hv⟩ := hv
    refine ⟨a, hl.evalBool ha, ?_⟩
    split at hv
    · next hstop =>
      rw [if_pos hstop]
      exact hv
    · next hstop =>
      obtain ⟨b, hb, hv⟩ := Outcome.map_eq_ok.mp hv
      rw [if_neg hstop]
      exact Outcome.map_eq_ok.mpr ⟨b, hr.evalBool hb, hv⟩

theorem cond {t t' a a' b b' : Expr} (ht : Refines env t env' t') (ha : Refines env a env' a')
    (hb : Refines env b env' b') (ty ty' : Ty) :
    Refines env (.cond t a b ty) env' (.cond t' a' b' ty') := by
  intro v hv
  rw [eval_cond, Outcome.bind_eq_ok] at hv ⊢
  obtain ⟨c, hc, hv⟩ := hv
  refine ⟨c, ht.evalBool hc, ?_⟩
  cases c with
  | true => exact ha v hv
  | false => exact hb v hv

theorem call {es es' : List Expr} (hnow : env.now = env'.now)
    (h : List.Forall₂ (fun e e' => Refines env e env' e') es es') (method : Method) (ty ty' : Ty) :
    Refines env (.call method es ty) env' (.call method es' ty') := by
  intro v hv
  rw [eval_call, Outcome.bind_eq_ok] at hv ⊢
  obtain ⟨vs, hvs, hv⟩ := hv
  rw [evalAll_eq_ok] at hvs
  refine ⟨vs, (evalAll_eq_ok env').mpr ?_, hnow ▸ hv⟩
  exact Outcome.forall₂_transfer (fun _ _ w hee' hw => hee' w hw) h hvs

theorem construct {es es' : List Expr} {bs bs' : List (String × Expr)}
    (hes : List.Forall₂ (fun e e' => Refines env e env' e') es es')
    (hbs : List.Forall₂ (fun b b' => b.1 = b'.1 ∧ Refines env b.2 env' b'.2) bs bs')
    (record : RecordTy) :
    Refines env (.construct record es bs) env' (.construct record es' bs') := by
  intro v hv
  rw [eval_construct, Outcome.bind_eq_ok] at hv ⊢
  obtain ⟨vs, hvs, hv⟩ := hv
  obtain ⟨ws, hws, hv⟩ := Outcome.bind_eq_ok.mp hv
  rw [evalAll_eq_ok] at hvs
  rw [evalBindings_eq_ok] at hws
  refine ⟨vs, (evalAll_eq_ok env').mpr ?_, Outcome.bind_eq_ok.mpr ⟨ws, ?_, hv⟩⟩
  · exact Outcome.forall₂_transfer (fun _ _ w hee' hw => hee' w hw) hes hvs
  · refine (evalBindings_eq_ok env').mpr ?_
    exact Outcome.forall₂_transfer
      (fun _ _ w hbb' hw => ⟨hbb'.1 ▸ hw.1, hbb'.2 w.2 hw.2⟩) hbs hws

end Refines

/-! ### Subexpressions -/

mutual

/-- An expression and all expressions below it. -/
def nodes : Expr → List Expr
  | .const v ty => [.const v ty]
  | .param p => [.param p]
  | .member e name ty => .member e name ty :: nodes e
  | .unary op e ty => .unary op e ty :: nodes e
  | .binary op l r ty => .binary op l r ty :: (nodes l ++ nodes r)
  | .cond t a b ty => .cond t a b ty :: (nodes t ++ nodes a ++ nodes b)
  | .call method es ty => .call method es ty :: nodesAll es
  | .construct record es bs => .construct record es bs :: (nodesAll es ++ nodesBindings bs)

/-- All expressions in a list and below. -/
def nodesAll : List Expr → List Expr
  | [] => []
  | e :: es => nodes e ++ nodesAll es

/-- All named expressions in a list and below. -/
def nodesBindings : List (String × Expr) → List Expr
  | [] => []
  | (_, e) :: bs => nodes e ++ nodesBindings bs

end

theorem mem_nodesAll {n : Expr} : ∀ {es : List Expr}, n ∈ nodesAll es ↔ ∃ e ∈ es, n ∈ nodes e
  | [] => ⟨nofun, nofun⟩
  | e :: es => by
    show n ∈ nodes e ++ nodesAll es ↔ _
    rw [List.mem_append, mem_nodesAll]
    simp

theorem mem_nodesBindings {n : Expr} : ∀ {bs : List (String × Expr)},
    n ∈ nodesBindings bs ↔ ∃ b ∈ bs, n ∈ nodes b.2
  | [] => ⟨nofun, nofun⟩
  | (name, e) :: bs => by
    show n ∈ nodes e ++ nodesBindings bs ↔ _
    rw [List.mem_append, mem_nodesBindings]
    simp

theorem self_mem_nodes (e : Expr) : e ∈ nodes e := by
  cases e <;> exact List.mem_cons_self

/-- Whether something holds of an expression and of everything below it. -/
def All (P : Expr → Prop) (e : Expr) : Prop :=
  ∀ n ∈ e.nodes, P n

variable {P : Expr → Prop}

theorem All.self {e : Expr} (h : e.All P) : P e :=
  h e e.self_mem_nodes

theorem All.imp {Q : Expr → Prop} {e : Expr} (h : e.All P) (hPQ : ∀ n, P n → Q n) : e.All Q :=
  fun n hn => hPQ n (h n hn)

theorem all_const {v : Value} {ty : Ty} : (Expr.const v ty).All P ↔ P (.const v ty) :=
  List.forall_mem_singleton

theorem all_param {p : Param} : (Expr.param p).All P ↔ P (.param p) :=
  List.forall_mem_singleton

theorem all_member {e : Expr} {name : String} {ty : Ty} :
    (Expr.member e name ty).All P ↔ P (.member e name ty) ∧ e.All P :=
  List.forall_mem_cons

theorem all_unary {op : UnaryOp} {e : Expr} {ty : Ty} :
    (Expr.unary op e ty).All P ↔ P (.unary op e ty) ∧ e.All P :=
  List.forall_mem_cons

theorem all_binary {op : BinaryOp} {l r : Expr} {ty : Ty} :
    (Expr.binary op l r ty).All P ↔ P (.binary op l r ty) ∧ l.All P ∧ r.All P := by
  refine List.forall_mem_cons.trans (and_congr_right fun _ => ?_)
  exact List.forall_mem_append

theorem all_cond {t a b : Expr} {ty : Ty} :
    (Expr.cond t a b ty).All P ↔ P (.cond t a b ty) ∧ t.All P ∧ a.All P ∧ b.All P := by
  refine List.forall_mem_cons.trans (and_congr_right fun _ => ?_)
  rw [List.forall_mem_append, List.forall_mem_append, and_assoc]
  rfl

theorem forall_mem_nodesAll {es : List Expr} :
    (∀ n ∈ nodesAll es, P n) ↔ ∀ e ∈ es, e.All P := by
  simp only [mem_nodesAll, All]
  exact ⟨fun h e he n hn => h n ⟨e, he, hn⟩, fun h n ⟨e, he, hn⟩ => h e he n hn⟩

theorem forall_mem_nodesBindings {bs : List (String × Expr)} :
    (∀ n ∈ nodesBindings bs, P n) ↔ ∀ b ∈ bs, b.2.All P := by
  simp only [mem_nodesBindings, All]
  exact ⟨fun h b hb n hn => h n ⟨b, hb, hn⟩, fun h n ⟨b, hb, hn⟩ => h b hb n hn⟩

theorem all_call {method : Method} {es : List Expr} {ty : Ty} :
    (Expr.call method es ty).All P ↔ P (.call method es ty) ∧ ∀ e ∈ es, e.All P := by
  rw [← forall_mem_nodesAll]
  exact List.forall_mem_cons

theorem all_construct {record : RecordTy} {es : List Expr} {bs : List (String × Expr)} :
    (Expr.construct record es bs).All P ↔
      P (.construct record es bs) ∧ (∀ e ∈ es, e.All P) ∧ ∀ b ∈ bs, b.2.All P := by
  rw [← forall_mem_nodesAll, ← forall_mem_nodesBindings]
  refine List.forall_mem_cons.trans (and_congr_right fun _ => ?_)
  exact List.forall_mem_append

end Expr
end SeqQuery
