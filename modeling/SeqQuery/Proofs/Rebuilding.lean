/-
# Rewritten expressions could have been built

Folding and regrouping put nodes together without asking the typing rules again: a node over
rewritten parts keeps the type it had, and the value of an operation becomes a constant of
the operation's type. Still, what they give could have been built through the rules. Handing
the parts of any of its nodes to the checking function for nodes of that kind gives back the
very node (`Expr.rebuild`), the type it carries included.

For operations this follows from the types that are carried (`Expr.Checked`). For constants
it depends on the values, so that evaluation has to give instances of the types that the
rules promise; deep constants lead to no others.

Key definitions: `Expr.rebuild`, `Vocabulary.deepConstants`.
Key theorems: `Expr.rebuild_of_checked`, `Expr.built_of_rebuild`,
`Vocabulary.closed_deepConstants`, `Expr.fold_regroup_rebuild`.
-/
import SeqQuery.Proofs.Substitution
import SeqQuery.Proofs.TypeSoundness

namespace SeqQuery

namespace Vocabulary

variable {allowed : BinaryOp → Prop}

/-- Deep constants, and of the operators on two operands none but those that are allowed. -/
def deepConstants (allowed : BinaryOp → Prop) : Vocabulary where
  const v ty := ty.admitsDeep v
  param _ := True
  binary op _ := allowed op
  other _ := True

theorem closed_deepConstants : (deepConstants allowed).Closed where
  narrow _ h := h
  zero _ _ := Ty.admitsDeep_zero _
  retype _ _ hv hadmits := Ty.admitsDeep_of_admits hv hadmits
  combined _ hnum := Value.admitsDeep_ty hnum
  evaluated hc hall _ hv := Expr.eval_empty_deep (fun _ _ hmem => hall _ hmem) hc hv

end Vocabulary

namespace Expr

variable {e : Expr}

theorem Built.over_deepConstants {allowed : BinaryOp → Prop} (he : e.Built)
    (hconst : ∀ v ty, .const v ty ∈ e.nodes → ty.admitsDeep v)
    (hop : ∀ op l r ty, .binary op l r ty ∈ e.nodes → allowed op) :
    e.Over (.deepConstants allowed) := by
  refine ⟨he.checked, fun n hn => ?_⟩
  cases n with
  | const v ty => exact hconst v ty hn
  | binary op l r ty => exact hop op l r ty hn
  | _ => trivial

/-- What a node is made into when its parts are handed to the checking function for nodes of
its kind. -/
def rebuild : Expr → Except ExprError Expr
  | .const v ty => mkConst v ty
  | .param p => .ok (.param p)
  | .member e name _ => mkMember e name
  | .unary op e _ => mkUnary op e
  | .binary op l r _ => mkBinary op l r
  | .cond t a b _ => mkCond t a b
  | .call method es _ => mkCallOf method es
  | .construct record es bs => mkConstruct record es bs

/-- A well-typed node is what is built from its parts, if a constant is an instance of the
type it carries. -/
theorem rebuild_of_checked (hc : e.Checked) (hconst : ∀ v ty, .const v ty = e → ty.admits v) :
    e.rebuild = .ok e := by
  cases e with
  | const v ty => exact mkConst_eq_ok.mpr ⟨hconst v ty rfl, rfl⟩
  | param p => rfl
  | member e name ty => exact mkMember_eq_ok.mpr ⟨ty, hc.2, rfl⟩
  | unary op e ty => exact mkUnary_eq_ok.mpr ⟨ty, hc.2, rfl⟩
  | binary op l r ty => exact mkBinary_eq_ok.mpr ⟨ty, hc.2.2, rfl⟩
  | cond t a b ty => exact mkCond_eq_ok.mpr ⟨hc.2.2.2.1, ty, hc.2.2.2.2, rfl⟩
  | call method es ty => exact mkCallOf_eq_ok.mpr ⟨ty, hc.2, rfl⟩
  | construct record es bs => exact mkConstruct_eq_ok.mpr ⟨hc.2.2, rfl⟩

/-- A node that is built from its parts is so whenever the parts are. -/
theorem built_of_rebuild_eq (h : e.rebuild = .ok e) (hbelow : ∀ c ∈ e.children, c.Built) :
    e.Built := by
  cases e with
  | const v ty => exact .const h
  | param p => exact .param p
  | member e name ty => exact .member (hbelow e (by simp [children])) h
  | unary op e ty => exact .unary (hbelow e (by simp [children])) h
  | binary op l r ty =>
    exact .binary (hbelow l (by simp [children])) (hbelow r (by simp [children])) h
  | cond t a b ty =>
    exact .cond (hbelow t (by simp [children])) (hbelow a (by simp [children]))
      (hbelow b (by simp [children])) h
  | call method es ty =>
    obtain ⟨ty', hty, -⟩ := mkCallOf_eq_ok.mp h
    have hsome := (Method.resultTy_eq_ok hty).isSome_object
    rw [Method.split_map, Option.isSome_map] at hsome
    have hsplit := Method.toList_split method es hsome
    refine .call (fun o ho => hbelow o ?_) (fun a ha => hbelow a ?_) h
    · show o ∈ es
      rw [← hsplit]
      exact List.mem_append_left _ (Option.mem_toList.mpr ho)
    · show a ∈ es
      rw [← hsplit]
      exact List.mem_append_right _ ha
  | construct record es bs =>
    exact .construct (fun a ha => hbelow a (List.mem_append_left _ ha))
      (fun b hb => hbelow b.2 (List.mem_append_right _ (List.mem_map_of_mem hb))) h

/-- An expression whose nodes all are what is built from their parts can be built through the
typing rules. -/
theorem built_of_rebuild : e.All (fun n => n.rebuild = .ok n) → e.Built := by
  induction e using children_induction with
  | h e ih =>
    intro h
    obtain ⟨hself, hbelow⟩ := all_iff_children.mp h
    exact built_of_rebuild_eq hself fun c hc => ih c hc (hbelow c hc)

/-- Every expression in a well-typed one is well-typed. -/
theorem Checked.all : e.Checked → e.All Checked := by
  induction e using children_induction with
  | h e ih => exact fun hc => all_iff_children.mpr ⟨hc, fun c hmem => ih c hmem (hc.child c hmem)⟩

theorem Over.rebuild {allowed : BinaryOp → Prop} (he : e.Over (.deepConstants allowed)) :
    e.All fun n => n.rebuild = .ok n := by
  intro n hn
  refine rebuild_of_checked (he.checked.all n hn) ?_
  rintro v ty rfl
  exact Ty.admits_of_admitsDeep (he.allowed _ hn)

/-- Folding and regrouping take an expression with deep constants to one of the same type
that has deep constants too and that the typing rules build again node by node. -/
theorem fold_regroup_rebuild (e : Expr) (he : e.Built)
    (hconst : ∀ v ty, .const v ty ∈ e.nodes → ty.admitsDeep v) :
    ∀ e' ∈ [e.fold, e.regroup], e'.ty = e.ty ∧ e'.Built ∧
      (∀ n ∈ e'.nodes, n.rebuild = .ok n) ∧ ∀ v ty, .const v ty ∈ e'.nodes → ty.admitsDeep v := by
  have hover : e.Over (.deepConstants fun _ => True) :=
    he.over_deepConstants hconst fun _ _ _ _ _ => trivial
  have hresult : ∀ {e' : Expr}, e'.Over (.deepConstants fun _ => True) → e'.Built ∧
      (∀ n ∈ e'.nodes, n.rebuild = .ok n) ∧ ∀ v ty, .const v ty ∈ e'.nodes → ty.admitsDeep v :=
    fun h => ⟨built_of_rebuild h.rebuild, h.rebuild, fun _ _ hmem => h.allowed _ hmem⟩
  intro e' hmem
  rcases List.mem_pair.mp hmem with rfl | rfl
  · exact ⟨(fold_checked he.checked).2, hresult (hover.fold Vocabulary.closed_deepConstants)⟩
  · exact ⟨(regroup_checked he.checked).2, hresult (hover.regroup Vocabulary.closed_deepConstants)⟩

/-- A choice of null comes down to a null of the type of both sides. -/
theorem fold_regroup_rebuild_null :
    let e : Expr := .cond (ofValue (.bool true)) (ofValue .null) (ofValue (.string "a")) .string
    e.fold = .const .null .string ∧ ∀ e' ∈ [e.fold, e.regroup], e'.ty = .string ∧ e'.Built ∧
      (∀ n ∈ e'.nodes, n.rebuild = .ok n) ∧
        ∀ v ty, .const v ty ∈ e'.nodes → ty.admitsDeep v := by
  intro e
  have he : mkCond (ofValue (.bool true)) (ofValue .null) (ofValue (.string "a")) = .ok e := rfl
  have hbuilt : e.Built := .cond (.value _) (.value _) (.value _) he
  refine ⟨rfl, fold_regroup_rebuild e hbuilt ?_⟩
  intro v ty h
  simp only [e, nodes, ofValue, List.cons_append, List.nil_append, List.mem_cons, reduceCtorEq,
    Expr.const.injEq, List.not_mem_nil, or_false, false_or] at h
  rcases h with ⟨rfl, rfl⟩ | ⟨rfl, rfl⟩ | ⟨rfl, rfl⟩ <;> rfl

end Expr
end SeqQuery
