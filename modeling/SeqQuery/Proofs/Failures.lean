/-
# Folding keeps failures

Folding keeps the values of an expression (`Expr.fold_refines`), and what fails before it
fails after it in the same way, with one exception: regrouping a checked chain may hide an
overflow between the two constants that it brings together (`Expr.HidesError`).

Everything else that folding does to a node leaves the outcome as it is. A connective that
comes down to one side does so because the other is a Boolean, and so is the side that is
left, as nodes are well-typed and constants and parameters have values of their types
(`Vocabulary.grounded`). An operation on constants is replaced only if it has a value.

`Keeps` is the relation between the outcomes before and after; it goes along with every kind
of node, so that one step for single nodes is enough (`Expr.finish_keeps`).

Key definitions: `Keeps`, `Vocabulary.grounded`, `Expr.meeting?`, `Expr.HidesError`,
`Expr.mayHide`.
Key theorems: `Expr.keeps_mapChildren`, `Expr.keptSide?_eval`, `Expr.regroup?_keeps`,
`Expr.finish_keeps`, `Expr.fold_keeps`, `Expr.fold_failures`.
-/
import SeqQuery.Proofs.CheckedChains
import SeqQuery.Proofs.TypeSoundness
import SeqQuery.Proofs.Vocabulary

namespace SeqQuery

variable {ε α β : Type}

/-! ### Outcomes that are kept -/

/-- One outcome is kept by another: it has the same value, or the same error if that is not
excused. -/
def Keeps (excused : ε → Prop) (x y : Except ε α) : Prop :=
  Ends (fun a => y = .ok a) (fun e => y = .error e ∨ excused e) x

namespace Keeps

variable {excused excused' : ε → Prop} {x y z : Except ε α}

theorem refl (x : Except ε α) : Keeps excused x x := by
  cases x with
  | ok a => exact .ok rfl
  | error e => exact .error (.inl rfl)

theorem of_eq (h : x = y) : Keeps excused x y :=
  h ▸ .refl x

theorem mono (h : Keeps excused x y) (he : ∀ e, excused e → excused' e) : Keeps excused' x y :=
  Ends.mono h fun e hy => hy.imp_right (he e)

theorem trans (h : Keeps excused x y) (h' : Keeps excused y z) : Keeps excused x z := by
  cases h with
  | ok hy => exact .ok (h'.of_ok hy)
  | error hy =>
    refine .error ?_
    rcases hy with hy | he
    · exact h'.of_error hy
    · exact .inr he

/-- Chains are kept when their first steps are and the rest is from there. -/
theorem bind {f g : α → Except ε β} (h : Keeps excused x y) (hf : ∀ a, Keeps excused (f a) (g a)) :
    Keeps excused (x >>= f) (y >>= g) := by
  cases h with
  | ok hy =>
    rw [hy]
    exact hf _
  | error hy =>
    refine .error ?_
    rcases hy with hy | he
    · rw [hy]
      exact .inl rfl
    · exact .inr he

theorem map (h : Keeps excused x y) (f : α → β) : Keeps excused (x.map f) (y.map f) :=
  h.bind fun a => .refl (.ok (f a))

/-- Mapping a step over a list is kept when every step is. -/
theorem mapM {f g : α → Except ε β} : ∀ {as : List α}, (∀ a ∈ as, Keeps excused (f a) (g a)) →
    Keeps excused (as.mapM f) (as.mapM g)
  | [], _ => .refl _
  | a :: as, h => by
    rw [List.mapM_cons, List.mapM_cons]
    refine (h a List.mem_cons_self).bind fun b => ?_
    refine (mapM fun a' ha' => h a' (List.mem_cons_of_mem _ ha')).bind fun bs => ?_
    exact .refl _

end Keeps

/-- Regrouping numbers keeps the outcome, but for an overflow that it hides. -/
theorem Arith.regroup_keeps {op : Arith} {ty : Ty} {c d x cd : Value}
    (hop : (BinaryOp.arith op).isAssociative) (hty : ty.isInteger) (hc : ty.admitsDeep c)
    (hx : ty.admitsDeep x) (hcd : op.apply c d = .ok cd) :
    Keeps (fun err => err = .overflow op.name ∧ op.Hides c d x)
      (op.apply x d >>= op.apply c) (op.apply x cd) := by
  cases hchain : op.apply x d >>= op.apply c with
  | ok u =>
    obtain ⟨xd, hxd, hu⟩ := Outcome.bind_eq_ok.mp hchain
    exact .ok (Arith.apply_regroup hop hty hc hcd hxd hu)
  | error err => exact .error (Arith.apply_regroup_error hop hty hc hx hcd hchain)

namespace Expr

variable {env : Env} {excused : ExprError → Prop}

theorem keeps_evalBool {e e' : Expr} (h : Keeps excused (e.eval env) (e'.eval env)) :
    Keeps excused (e.evalBool env) (e'.evalBool env) :=
  h.bind fun v => .refl v.expectBool

/-- A node keeps its outcome over expressions that keep theirs. -/
theorem keeps_mapChildren {g : Expr → Expr} {e : Expr}
    (h : ∀ c ∈ e.children, Keeps excused (c.eval env) ((g c).eval env)) :
    Keeps excused (e.eval env) ((e.mapChildren g).eval env) := by
  cases e with
  | const v ty => exact .refl _
  | param p => exact .refl _
  | member e name ty =>
    have he := h e (by simp [children])
    exact he.bind fun v => .refl (v.readMember name)
  | unary op e ty =>
    have he := h e (by simp [children])
    exact he.bind fun v => .refl (op.apply v)
  | binary op l r ty =>
    have hl := h l (by simp [children])
    have hr := h r (by simp [children])
    rw [mapChildren]
    cases hop : op.isStrict with
    | true =>
      rw [eval_strict env hop, eval_strict env hop]
      exact hl.bind fun v => hr.bind fun w => .refl _
    | false =>
      obtain ⟨op, rfl⟩ := BinaryOp.isStrict_eq_false.mp hop
      rw [eval_connective, eval_connective]
      refine (keeps_evalBool hl).bind fun a => ?_
      split
      · exact .refl _
      · exact (keeps_evalBool hr).map _
  | cond t a b ty =>
    have ht := h t (by simp [children])
    rw [mapChildren, eval_cond, eval_cond]
    refine (keeps_evalBool ht).bind fun c => ?_
    split
    · exact h a (by simp [children])
    · exact h b (by simp [children])
  | call method es ty =>
    rw [mapChildren, eval_call, eval_call, evalAll_eq_mapM, evalAll_eq_mapM, List.mapM_map]
    exact (Keeps.mapM h).bind fun vs => .refl _
  | construct record es bs =>
    have hes := Keeps.mapM fun e he => h e (List.mem_append_left _ he)
    have hbs : Keeps excused (bs.mapM fun b => (eval env b.2).map (b.1, ·))
        (bs.mapM fun b => (eval env (g b.2)).map (b.1, ·)) :=
      .mapM fun b hb => (h b.2 (List.mem_append_right _ (List.mem_map_of_mem hb))).map _
    rw [mapChildren, eval_construct, eval_construct, evalAll_eq_mapM, evalAll_eq_mapM,
      evalBindings_eq_mapM, evalBindings_eq_mapM, List.mapM_map, List.mapM_map]
    exact hes.bind fun vs => hbs.bind fun ws => .refl _

end Expr

/-! ### Expressions whose values are of their types -/

namespace Vocabulary

/-- Deep constants, parameters that have deep values, and no sums or products of
floating-point numbers. -/
def grounded (env : Env) : Vocabulary where
  const v ty := ty.admitsDeep v
  param p := ∃ v, env.find? p = some v ∧ p.ty.admitsDeep v
  binary op ty := (op.isAssociative && ty.isFloat) = false
  other _ := True

theorem closed_grounded (env : Env) : (grounded env).Closed where
  narrow _ h := h
  zero _ _ := Ty.admitsDeep_zero _
  retype _ _ hv hadmits := Ty.admitsDeep_of_admits hv hadmits
  combined _ hnum := Value.admitsDeep_ty hnum
  evaluated hc hall _ hv := Expr.eval_empty_deep (fun _ _ hmem => hall _ hmem) hc hv

end Vocabulary

namespace Expr

variable {env : Env} {excused : ExprError → Prop} {e l r : Expr} {ty : Ty}

/-- An expression whose constants and parameters have values of their types ends in a value
of its own type or in an error. -/
theorem Over.ends (he : e.Over (.grounded env)) :
    Ends (fun v => e.ty.admitsDeep v = true) (fun _ => True) (e.eval env) := by
  have hconst : ∀ v ty, .const v ty ∈ e.nodes → ty.admitsDeep v := fun v ty hmem =>
    he.allowed _ hmem
  have hparam : ∀ p, .param p ∈ e.nodes → ∃ v, env.find? p = some v ∧ p.ty.admitsDeep v :=
    fun p hmem => he.allowed _ hmem
  exact (eval_ends hconst hparam e (fun n hn => hn) he.checked).mono fun _ _ => trivial

/-! ### Dropping a connective -/

/-- A Boolean expression has the outcome that it has as a side of a connective. -/
theorem Over.evalBool_map (he : e.Over (.grounded env)) (hty : e.ty = .bool) :
    (e.evalBool env).map .bool = e.eval env := by
  have hends := he.ends
  rw [hty] at hends
  unfold evalBool
  cases hv : e.eval env with
  | error err => rfl
  | ok v =>
    obtain ⟨b, rfl⟩ := Ty.admitsDeep_bool.mp (hends.of_ok hv)
    rfl

/-- A connective that a constant decides has the outcome of the side that it comes down
to. -/
theorem keptSide?_eval {op : Connective} {side : Side} (h : keptSide? op l r = some side)
    (he : (Expr.binary (.connective op) l r ty).Over (.grounded env)) :
    (Expr.binary (.connective op) l r ty).eval env = (side.choose l r).eval env := by
  obtain ⟨hl, hr⟩ := he.binary
  obtain ⟨htl, htr, -⟩ := BinaryOp.resultTy_connective.mp he.checked.2.2
  rw [eval_connective]
  rcases keptSide?_eq_some h with ⟨rfl, hconst⟩ | ⟨rfl, hconst | hconst⟩
  · obtain ⟨t, rfl⟩ := constantBool?_eq_some.mp hconst
    have hleft : evalBool env (.const (.bool !op.stop) t) = .ok !op.stop := rfl
    rw [hleft, Outcome.ok_bind, if_neg (by simp)]
    exact hr.evalBool_map htr
  · obtain ⟨t, rfl⟩ := constantBool?_eq_some.mp hconst
    have hleft : evalBool env (.const (.bool op.stop) t) = .ok op.stop := rfl
    rw [hleft, Outcome.ok_bind, if_pos rfl]
    rfl
  · obtain ⟨t, rfl⟩ := constantBool?_eq_some.mp hconst
    have hright : (evalBool env (.const (.bool !op.stop) t)).map Value.bool =
        .ok (.bool !op.stop) := rfl
    rw [hright, Side.choose, ← hl.evalBool_map htl]
    cases evalBool env l with
    | error err => rfl
    | ok a =>
      rw [Outcome.ok_bind]
      by_cases hstop : a = op.stop
      · rw [if_pos hstop]
        rfl
      · rw [if_neg hstop, ← Bool.eq_not_of_ne hstop]
        rfl

/-! ### Evaluating constants -/

/-- An operation on constants that is replaced by its value has that value everywhere. -/
theorem evaluate?_eval {e' : Expr} (h : e.evaluate? = some e') : e.eval env = e'.eval env := by
  obtain ⟨hready, v, hv, rfl⟩ := evaluate?_eq_some h
  rw [isReady_refines hready .empty env v hv]
  rfl

/-! ### Regrouping a chain -/

/-- The constants that meet when an operation is regrouped onto an operand, the outer one
first, and what is between them. -/
def meetingOnto? (outer inner : Expr) : Option (Value × Value × Expr) :=
  match outer.constant?, inner with
  | some c, .binary _ left right _ => (constantAndRest? left right).map fun found => (c, found)
  | _, _ => none

/-- The constants that meet when folding regroups a node, the outer one first, and what is
between them. -/
def meeting? (op : Arith) : Expr → Option (Value × Value × Expr)
  | .binary outer l r _ =>
    if outer = .arith op ∧ (regroup? outer l.fold r.fold).isSome then
      (meetingOnto? l.fold r.fold).or (meetingOnto? r.fold l.fold)
    else none
  | _ => none

/-- An error is the overflow of an operator that is hidden between two constants. -/
def HiddenBetween (op : Arith) (env : Env) (c d : Value) (rest : Expr) (err : ExprError) : Prop :=
  err = .overflow op.name ∧ op.mayHide c d ∧ ∃ x, rest.eval env = .ok x ∧ op.Hides c d x

/-- Folding regroups a node around two constants and hides an error between them. -/
def HidesError (env : Env) (n : Expr) (err : ExprError) : Prop :=
  ∃ op c d rest, n.meeting? op = some (c, d, rest) ∧ HiddenBetween op env c d rest err

/-- Whether folding regroups a node around two constants that hide an overflow of some
operand. -/
def mayHide (op : Arith) (n : Expr) : Bool :=
  (n.meeting? op).any fun found => op.mayHide found.1 found.2.1

theorem HidesError.may {err : ExprError} (h : e.HidesError env err) : ∃ op, e.mayHide op := by
  obtain ⟨op, c, d, rest, hmeeting, -, hmay, -⟩ := h
  refine ⟨op, ?_⟩
  rw [mayHide, hmeeting]
  exact hmay

section Regroup

variable {op : Arith} {outer inner e' : Expr}

/-- An inner operation has the outcome that it has with its constant on the right. -/
theorem eval_inner_eq (hop : (BinaryOp.arith op).isAssociative) {d : Value} {rest : Expr}
    (hinner : (Expr.binary (.arith op) l r ty).Over (.grounded env)) (hint : ty.isInteger)
    (hd : ty.admitsDeep d) (hrest : constantAndRest? l r = some (d, rest)) :
    (Expr.binary (.arith op) l r ty).eval env = rest.eval env >>= fun x => op.apply x d := by
  obtain ⟨-, hr⟩ := hinner.binary
  obtain ⟨-, hlr, hty⟩ := BinaryOp.resultTy_arith.mp hinner.checked.2.2
  rw [eval_strict env rfl]
  rcases constantAndRest?_eq_some hrest with ⟨t, rfl, rfl⟩ | ⟨t, rfl, rfl⟩
  · have hrty : r.ty = ty := by rw [← hlr, hty]
    refine hr.ends.bind_congr fun x hx => ?_
    exact Arith.apply_comm_of_deep hop hint hd (hrty ▸ hx)
  · rfl

/-- A regrouped chain of integers keeps the outcome of the chain with its constant on the
left, but for an overflow that is hidden between the constants that meet. -/
theorem regroupOnto?_keeps (hop : (BinaryOp.arith op).isAssociative)
    (h : regroupOnto? (.arith op) outer inner = some e') (hinner : inner.Over (.grounded env))
    (hint : inner.ty.isInteger) : ∃ c d rest, outer.eval env = .ok c ∧ inner.ty.admitsDeep c ∧
      meetingOnto? outer inner = some (c, d, rest) ∧
      Keeps (HiddenBetween op env c d rest) (inner.eval env >>= op.apply c) (e'.eval env) := by
  obtain ⟨c, s, il, ir, ty, d, rest, cd, rfl, rfl, hrest, hcd, rfl, hty, hc, hd⟩ :=
    regroupOnto?_integers h hinner.checked hint
  replace hint : ty.isInteger := hint
  have hrestover : rest.Over (.grounded env) := by
    obtain ⟨hl, hr⟩ := hinner.binary
    rcases constantAndRest?_eq_some hrest with ⟨t, -, rfl⟩ | ⟨t, -, rfl⟩
    · exact hr
    · exact hl
  have hmeeting : meetingOnto? (.const c s) (.binary (.arith op) il ir ty) = some (c, d, rest) := by
    show (constantAndRest? il ir).map (fun found => (c, found)) = _
    rw [hrest]
    rfl
  refine ⟨c, d, rest, rfl, hc, hmeeting, ?_⟩
  rw [eval_inner_eq hop hinner hint hd hrest, eval_strict env rfl]
  cases hx : rest.eval env with
  | error err => exact .refl _
  | ok x =>
    have hxdeep : ty.admitsDeep x := hty ▸ hrestover.ends.of_ok hx
    refine (Arith.regroup_keeps hop hint hc hxdeep hcd).mono ?_
    rintro err ⟨herr, hhides⟩
    have hmay : op.mayHide c d := (Arith.mayHide_iff hop hint hc hd).mpr ⟨x, hxdeep, hhides⟩
    exact ⟨herr, hmay, x, hx, hhides⟩

/-- What has an inner operation is no constant. -/
theorem meetingOnto?_swap {found : Value × Value × Expr}
    (h : meetingOnto? outer inner = some found) : meetingOnto? inner outer = none := by
  cases inner with
  | binary op l r ty => rfl
  | _ => simp [meetingOnto?] at h

/-- A node whose chain is regrouped keeps its outcome, but for an overflow that is hidden
between the constants that meet. -/
theorem regroup?_keeps (hop : (BinaryOp.arith op).isAssociative)
    (h : regroup? (.arith op) l r = some e')
    (he : (Expr.binary (.arith op) l r ty).Over (.grounded env)) :
    ∃ c d rest, (meetingOnto? l r).or (meetingOnto? r l) = some (c, d, rest) ∧
      Keeps (HiddenBetween op env c d rest) ((Expr.binary (.arith op) l r ty).eval env)
        (e'.eval env) := by
  obtain ⟨hl, hr⟩ := he.binary
  obtain ⟨hnum, hlr, rfl⟩ := BinaryOp.resultTy_arith.mp he.checked.2.2
  have hint : l.ty.isInteger := by
    have hself : ((BinaryOp.arith op).isAssociative && l.ty.isFloat) = false := he.allowed.self
    rw [hop, Bool.true_and] at hself
    exact Ty.isInteger_of_not_isFloat hnum hself
  rw [eval_strict env rfl]
  rcases Option.or_eq_some_iff.mp h with h | ⟨-, h⟩
  · obtain ⟨c, d, rest, hc, -, hmeeting, hkeeps⟩ := regroupOnto?_keeps hop h hr (hlr ▸ hint)
    rw [hmeeting, hc, Outcome.ok_bind]
    exact ⟨c, d, rest, rfl, hkeeps⟩
  · -- the constant stands on the right and changes sides
    obtain ⟨c, d, rest, hc, hcdeep, hmeeting, hkeeps⟩ := regroupOnto?_keeps hop h hl hint
    rw [meetingOnto?_swap hmeeting, hmeeting]
    refine ⟨c, d, rest, rfl, ?_⟩
    have hsides : (l.eval env >>= fun v => r.eval env >>= fun w => op.apply v w) =
        l.eval env >>= op.apply c := by
      refine hl.ends.bind_congr fun v hv => ?_
      rw [hc, Outcome.ok_bind]
      exact Arith.apply_comm_of_deep hop hint hv hcdeep
    exact hsides ▸ hkeeps

end Regroup

/-! ### A node, and a whole expression -/

/-- Simplifying a node over folded expressions keeps its outcome, but for an error that the
node hides. -/
theorem simplify?_keeps {e' : Expr} (he : e.Over (.grounded env))
    (h : (e.mapChildren fold).simplify? = some e') :
    Keeps (e.HidesError env) ((e.mapChildren fold).eval env) (e'.eval env) := by
  have hnode := he.mapChildren_fold (Vocabulary.closed_grounded env)
  rcases simplify?_eq_some h with
    ⟨op, l, r, ty, side, heq, hside, rfl⟩ | ⟨op, l, r, ty, heq, hop, hregroup⟩
  · rw [heq] at hnode ⊢
    exact .of_eq (keptSide?_eval hside hnode)
  · cases op with
    | arith op =>
      cases e with
      | binary outer l r ty =>
        cases heq
        obtain ⟨c, d, rest, hmeeting, hkeeps⟩ := regroup?_keeps hop hregroup hnode
        have hmeets : meeting? op (.binary (.arith op) l r ty) = some (c, d, rest) := by
          rw [meeting?, if_pos ⟨rfl, by rw [hregroup]; rfl⟩, hmeeting]
        exact hkeeps.mono fun err hhidden => ⟨op, c, d, rest, hmeets, hhidden⟩
      | _ => cases heq
    | _ => cases hop

/-- Finishing a node over folded expressions keeps its outcome, but for an error that the
node hides. -/
theorem finish_keeps (he : e.Over (.grounded env)) :
    Keeps (e.HidesError env) ((e.mapChildren fold).eval env)
      ((e.mapChildren fold).finish.eval env) :=
  finish_induction (motive := fun n => Keeps (e.HidesError env) ((e.mapChildren fold).eval env)
    (n.eval env)) _ (.refl _) (fun _ h => simplify?_keeps he h)
    fun _ _ hs h => hs.trans (.of_eq (evaluate?_eval h))

/-- Folding keeps the outcome of an expression, but for an error that one of its nodes
hides. -/
theorem fold_keeps (he : e.Over (.grounded env)) :
    Keeps (fun err => ∃ n ∈ e.nodes, n.HidesError env err) (e.eval env) (e.fold.eval env) := by
  induction e using children_induction with
  | h e ih =>
    have hnodes := (all_iff_children.mp (fun n hn => hn : e.All (· ∈ e.nodes))).2
    have hbelow := (all_iff_children.mp he.allowed).2
    have hparts : Keeps (fun err => ∃ n ∈ e.nodes, n.HidesError env err) (e.eval env)
        ((e.mapChildren fold).eval env) := by
      refine keeps_mapChildren fun c hmem => ?_
      refine (ih c hmem ⟨he.checked.child c hmem, hbelow c hmem⟩).mono ?_
      rintro err ⟨n, hn, hhides⟩
      exact ⟨n, hnodes c hmem n hn, hhides⟩
    rw [fold_bottomUp e]
    exact hparts.trans ((finish_keeps he).mono fun err hhides => ⟨e, e.self_mem_nodes, hhides⟩)

/-- An expression that is built through the typing rules, with deep constants and under deep
values for its parameters, and that adds or multiplies no floating-point numbers, fails after
folding as it does before. The one exception is the overflow of a checked operator that one
of its nodes hides between two constants. -/
theorem fold_failures (env : Env) (e : Expr) (he : e.Built)
    (hf : ∀ n ∈ e.nodes, n.isFloatSum = false)
    (hconst : ∀ v ty, .const v ty ∈ e.nodes → ty.admitsDeep v)
    (hparam : ∀ p, .param p ∈ e.nodes → ∃ v, env.find? p = some v ∧ p.ty.admitsDeep v)
    (err : ExprError) (h : e.eval env = .error err) :
    e.fold.eval env = .error err ∨ ∃ n ∈ e.nodes, n.HidesError env err := by
  have hover : e.Over (.grounded env) := by
    refine ⟨he.checked, fun n hn => ?_⟩
    cases n with
    | const v ty => exact hconst v ty hn
    | param p => exact hparam p hn
    | binary op l r ty => exact hf _ hn
    | _ => trivial
  exact (fold_keeps hover).of_error h

/-- In `1 + (x + 2)` for the largest `x` the inner sum overflows, and nothing is hidden between
two constants of one sign: `x + 3` overflows as well. -/
theorem fold_failures_chain :
    let x : Param := ⟨0, "x", .int32⟩
    let env : Env := .single 0 x (.int32 2147483647)
    let sum : Expr := .binary (.arith .addChecked) (.param x) (ofValue (.int32 2)) .int32
    let e : Expr := .binary (.arith .addChecked) (ofValue (.int32 1)) sum .int32
    e.eval env = .error (.overflow "AddChecked") ∧
      e.fold.eval env = .error (.overflow "AddChecked") := by
  intro x env sum e
  have hsum : mkBinary (.arith .addChecked) (.param x) (ofValue (.int32 2)) = .ok sum := rfl
  have he : mkBinary (.arith .addChecked) (ofValue (.int32 1)) sum = .ok e := rfl
  have hbuilt : e.Built := .binary (.value _) (.binary (.param x) (.value _) hsum) he
  have hconst : ∀ v ty, .const v ty ∈ e.nodes → ty.admitsDeep v := by
    intro v ty h
    obtain ⟨rfl, rfl⟩ | ⟨rfl, rfl⟩ := by simpa [e, sum, nodes, ofValue, Value.ty] using h
    · rfl
    · rfl
  have hparam : ∀ p, .param p ∈ e.nodes → ∃ v, env.find? p = some v ∧ p.ty.admitsDeep v := by
    intro p h
    obtain rfl : p = x := by simpa [e, sum, nodes, ofValue] using h
    exact ⟨.int32 2147483647, rfl, rfl⟩
  have hnone : ∀ op : Arith, ∀ n ∈ e.nodes, n.mayHide op = false := by
    intro op
    cases op <;> simp only [e, sum, nodes, ofValue, List.forall_mem_cons] <;> decide
  have hfloat : ∀ n ∈ e.nodes, n.isFloatSum = false := by
    simp [e, sum, nodes, ofValue, isFloatSum, Ty.isFloat]
  have heval : e.eval env = .error (.overflow "AddChecked") := rfl
  rcases fold_failures env e hbuilt hfloat hconst hparam _ heval with hsame | ⟨n, hn, hhides⟩
  · exact ⟨heval, hsame⟩
  · obtain ⟨op, hmay⟩ := hhides.may
    exact absurd hmay (Bool.eq_false_iff.mp (hnone op n hn))

/-- Four failures that folding hides. In `-1 + (x + 1)` and in `-1 + (2147483647 + 1)` the inner
sum overflows, and the constants that meet have opposite signs; in `0 * (x * 2)` the outer
factor is zero. The last one is a text in a Boolean field of a constant record, which is no
Boolean once the connective in front of it is dropped. -/
theorem fold_hides_failures :
    let x : Param := ⟨0, "x", .int32⟩
    let largest : Value := .int32 2147483647
    let sum (l r : Expr) : Expr := .binary (.arith .addChecked) l r .int32
    let product (l r : Expr) : Expr := .binary (.arith .mulChecked) l r .int32
    let chain : Expr := sum (ofValue (.int32 (-1))) (sum (.param x) (ofValue (.int32 1)))
    let numbers : Expr := sum (ofValue (.int32 (-1))) (sum (ofValue largest) (ofValue (.int32 1)))
    let factors : Expr := product (ofValue (.int32 0)) (product (.param x) (ofValue (.int32 2)))
    let r : RecordTy := ⟨"R", .cons "A" .bool .nil⟩
    let both : Expr := .binary (.connective .and) (ofValue (.bool true))
      (.member (ofValue (.record r [.string "a"])) "A" .bool) .bool
    let env : Env := .single 0 x largest
    x.ty.admitsDeep largest ∧
      (chain.Built ∧ chain.eval env = .error (.overflow "AddChecked") ∧
        chain.fold.eval env = .ok largest) ∧
      (numbers.Built ∧ numbers.eval env = .error (.overflow "AddChecked") ∧
        numbers.fold = ofValue largest) ∧
      (factors.Built ∧ factors.eval env = .error (.overflow "MulChecked") ∧
        factors.fold.eval env = .ok (.int32 0)) ∧
      both.Built ∧ both.eval env = .error (.typeMismatch "Bool" "String") ∧
        both.fold.eval env = .ok (.string "a") := by
  intro x largest sum product chain numbers factors r both env
  have hinner : mkBinary (.arith .addChecked) (.param x) (ofValue (.int32 1)) =
      .ok (sum (.param x) (ofValue (.int32 1))) := rfl
  have hchain : mkBinary (.arith .addChecked) (ofValue (.int32 (-1)))
      (sum (.param x) (ofValue (.int32 1))) = .ok chain := rfl
  have hclosed : mkBinary (.arith .addChecked) (ofValue largest) (ofValue (.int32 1)) =
      .ok (sum (ofValue largest) (ofValue (.int32 1))) := rfl
  have hnumbers : mkBinary (.arith .addChecked) (ofValue (.int32 (-1)))
      (sum (ofValue largest) (ofValue (.int32 1))) = .ok numbers := rfl
  have hdouble : mkBinary (.arith .mulChecked) (.param x) (ofValue (.int32 2)) =
      .ok (product (.param x) (ofValue (.int32 2))) := rfl
  have hfactors : mkBinary (.arith .mulChecked) (ofValue (.int32 0))
      (product (.param x) (ofValue (.int32 2))) = .ok factors := rfl
  have hmember : mkMember (ofValue (.record r [.string "a"])) "A" =
      .ok (.member (ofValue (.record r [.string "a"])) "A" .bool) := rfl
  have hboth : mkBinary (.connective .and) (ofValue (.bool true))
      (.member (ofValue (.record r [.string "a"])) "A" .bool) = .ok both := rfl
  refine ⟨rfl, ⟨?_, rfl, rfl⟩, ⟨?_, rfl, rfl⟩, ⟨?_, rfl, rfl⟩, ?_, rfl, rfl⟩
  · exact .binary (.value _) (.binary (.param x) (.value _) hinner) hchain
  · exact .binary (.value _) (.binary (.value _) (.value _) hclosed) hnumbers
  · exact .binary (.value _) (.binary (.param x) (.value _) hdouble) hfactors
  · exact .binary (.value _) (.member (.value _) hmember) hboth

end Expr
end SeqQuery
