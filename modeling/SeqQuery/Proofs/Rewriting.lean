/-
# Rewriting from the leaves up

A rewrite of whole expressions is often given by one step for single nodes, which is done
after everything below the node has been rewritten (`Expr.BottomUp`). What the step does
to a well-typed node it does to a whole expression: it keeps the type, it keeps to a
set of nodes, it keeps values.

Key definitions: `Expr.children`, `Expr.mapChildren`, `Expr.BottomUp`, `Expr.Shallow`.
Key theorems: `Expr.children_induction`, `Expr.BottomUp.checked`, `Expr.BottomUp.all`,
`Expr.BottomUp.refines`.
-/
import SeqQuery.Proofs.Checked

namespace SeqQuery
namespace Expr

/-! ### The expressions right below -/

/-- The expressions right below an expression. -/
def children : Expr → List Expr
  | .const _ _ => []
  | .param _ => []
  | .member e _ _ => [e]
  | .unary _ e _ => [e]
  | .binary _ l r _ => [l, r]
  | .cond t a b _ => [t, a, b]
  | .call _ es _ => es
  | .construct _ es bs => es ++ bs.map (·.2)

/-- The same node over other expressions. -/
def mapChildren (g : Expr → Expr) : Expr → Expr
  | .const v ty => .const v ty
  | .param p => .param p
  | .member e name ty => .member (g e) name ty
  | .unary op e ty => .unary op (g e) ty
  | .binary op l r ty => .binary op (g l) (g r) ty
  | .cond t a b ty => .cond (g t) (g a) (g b) ty
  | .call method es ty => .call method (es.map g) ty
  | .construct record es bs => .construct record (es.map g) (bs.map fun b => (b.1, g b.2))

theorem children_induction {motive : Expr → Prop}
    (h : ∀ e, (∀ c ∈ e.children, motive c) → motive e) (e : Expr) : motive e := by
  induction e with
  | const v ty => exact h _ (by simp [children])
  | param p => exact h _ (by simp [children])
  | member e name ty ih => exact h _ (by simpa [children] using ih)
  | unary op e ty ih => exact h _ (by simpa [children] using ih)
  | binary op l r ty ihl ihr => exact h _ (by simpa [children] using ⟨ihl, ihr⟩)
  | cond t a b ty iht iha ihb => exact h _ (by simpa [children] using ⟨iht, iha, ihb⟩)
  | call method es ty ih => exact h _ ih
  | construct record es bs ihe ihb =>
    refine h _ fun c hc => ?_
    rcases List.mem_append.mp hc with hc | hc
    · exact ihe c hc
    · obtain ⟨b, hb, rfl⟩ := List.mem_map.mp hc
      exact ihb b hb

theorem all_iff_children {P : Expr → Prop} {e : Expr} :
    e.All P ↔ P e ∧ ∀ c ∈ e.children, c.All P := by
  cases e with
  | const v ty => simp [all_const, children]
  | param p => simp [all_param, children]
  | member e name ty => simp [all_member, children]
  | unary op e ty => simp [all_unary, children]
  | binary op l r ty => simp [all_binary, children]
  | cond t a b ty => simp [all_cond, children]
  | call method es ty => simp [all_call, children]
  | construct record es bs =>
    simp only [all_construct, children, List.forall_mem_append, List.forall_mem_map]

theorem Checked.child {e : Expr} (hc : e.Checked) : ∀ c ∈ e.children, c.Checked := by
  cases e with
  | const v ty => simp [children]
  | param p => simp [children]
  | member e name ty => simpa [children] using hc.1
  | unary op e ty => simpa [children] using hc.1
  | binary op l r ty => simpa [children] using ⟨hc.1, hc.2.1⟩
  | cond t a b ty => simpa [children] using ⟨hc.1, hc.2.1, hc.2.2.1⟩
  | call method es ty => exact checkedAll_iff.mp hc.1
  | construct record es bs =>
    intro c hmem
    rcases List.mem_append.mp hmem with hmem | hmem
    · exact checkedAll_iff.mp hc.1 c hmem
    · obtain ⟨b, hb, rfl⟩ := List.mem_map.mp hmem
      exact checkedBindings_iff.mp hc.2.1 b hb

theorem children_mapChildren (g : Expr → Expr) (e : Expr) :
    (e.mapChildren g).children = e.children.map g := by
  cases e <;> simp [children, Expr.mapChildren]

theorem ty_mapChildren (g : Expr → Expr) (e : Expr) : (e.mapChildren g).ty = e.ty := by
  cases e <;> rfl

/-- Named expressions of the same types set the same fields to the types. -/
theorem map_named_ty_eq {bs cs : List (String × Expr)}
    (h : List.Forall₂ (fun b c => b.1 = c.1 ∧ c.2.ty = b.2.ty) bs cs) :
    (cs.map fun (m, e) => (m, e.ty)) = bs.map fun (m, e) => (m, e.ty) := by
  rw [← List.forall₂_eq_eq_eq, List.forall₂_map_left_iff, List.forall₂_map_right_iff]
  exact (h.imp fun _ _ h => Prod.ext h.1.symm h.2).flip

variable {g : Expr → Expr}

/-- A well-typed node is so over other expressions of the same types. -/
theorem Checked.mapChildren {e : Expr} (hc : e.Checked)
    (h : ∀ c ∈ e.children, (g c).Checked ∧ (g c).ty = c.ty) : (e.mapChildren g).Checked := by
  cases e with
  | const v ty => exact hc
  | param p => exact hc
  | member e name ty =>
    obtain ⟨hce, hty⟩ := h e (by simp [children])
    exact ⟨hce, hty ▸ hc.2⟩
  | unary op e ty =>
    obtain ⟨hce, hty⟩ := h e (by simp [children])
    exact ⟨hce, hty ▸ hc.2⟩
  | binary op l r ty =>
    obtain ⟨hcl, htl⟩ := h l (by simp [children])
    obtain ⟨hcr, htr⟩ := h r (by simp [children])
    exact ⟨hcl, hcr, htl ▸ htr ▸ hc.2.2⟩
  | cond t a b ty =>
    obtain ⟨hct, htt⟩ := h t (by simp [children])
    obtain ⟨hca, hta⟩ := h a (by simp [children])
    obtain ⟨hcb, htb⟩ := h b (by simp [children])
    exact ⟨hct, hca, hcb, htt ▸ hc.2.2.2.1, hta ▸ htb ▸ hc.2.2.2.2⟩
  | call method es ty =>
    have htys : (es.map g).map Expr.ty = es.map Expr.ty := by
      rw [List.map_map]
      exact List.map_congr_left fun e he => (h e he).2
    refine ⟨checkedAll_iff.mpr ?_, htys ▸ hc.2⟩
    rw [List.forall_mem_map]
    exact fun e he => (h e he).1
  | construct record es bs =>
    have hes : ∀ e ∈ es, (g e).Checked ∧ (g e).ty = e.ty := fun e he =>
      h e (List.mem_append_left _ he)
    have hbs : ∀ b ∈ bs, (g b.2).Checked ∧ (g b.2).ty = b.2.ty := fun b hb =>
      h b.2 (List.mem_append_right _ (List.mem_map_of_mem hb))
    have htys : (es.map g).map Expr.ty = es.map Expr.ty := by
      rw [List.map_map]
      exact List.map_congr_left fun e he => (hes e he).2
    have hnamed : List.Forall₂ (fun b c => b.1 = c.1 ∧ c.2.ty = b.2.ty) bs
        (bs.map fun b => (b.1, g b.2)) := by
      rw [List.forall₂_map_right_iff, List.forall₂_same]
      exact fun b hb => ⟨rfl, (hbs b hb).2⟩
    refine ⟨checkedAll_iff.mpr ?_, checkedBindings_iff.mpr ?_, ?_⟩
    · rw [List.forall_mem_map]
      exact fun e he => (hes e he).1
    · rw [List.forall_mem_map]
      exact fun b hb => (hbs b hb).1
    · rw [htys, map_named_ty_eq hnamed]
      exact hc.2.2

theorem refines_mapChildren {env : Env} {e : Expr}
    (h : ∀ c ∈ e.children, Refines env c env (g c)) : Refines env e env (e.mapChildren g) := by
  cases e with
  | const v ty => exact .refl _
  | param p => exact .refl _
  | member e name ty => exact (h e (by simp [children])).member name ty ty
  | unary op e ty => exact (h e (by simp [children])).unary op ty ty
  | binary op l r ty =>
    exact (h l (by simp [children])).binary (h r (by simp [children])) op ty ty
  | cond t a b ty =>
    exact (h t (by simp [children])).cond (h a (by simp [children])) (h b (by simp [children]))
      ty ty
  | call method es ty =>
    refine .call rfl ?_ method ty ty
    rw [List.forall₂_map_right_iff, List.forall₂_same]
    exact h
  | construct record es bs =>
    refine .construct ?_ ?_ record
    · rw [List.forall₂_map_right_iff, List.forall₂_same]
      exact fun e he => h e (List.mem_append_left _ he)
    · rw [List.forall₂_map_right_iff, List.forall₂_same]
      exact fun b hb => ⟨rfl, h b.2 (List.mem_append_right _ (List.mem_map_of_mem hb))⟩

/-! ### Rewrites -/

/-- A rewrite is done from the leaves up when it rewrites each node by one step after
everything below the node. -/
def BottomUp (step rewrite : Expr → Expr) : Prop :=
  ∀ e, rewrite e = step (e.mapChildren rewrite)

section BottomUp

variable {step rewrite : Expr → Expr}

/-- A step that keeps well-typed nodes well-typed and of their type keeps whole
expressions so. -/
theorem BottomUp.checked (hup : BottomUp step rewrite)
    (hstep : ∀ e, e.Checked → (step e).Checked ∧ (step e).ty = e.ty) (e : Expr) :
    e.Checked → (rewrite e).Checked ∧ (rewrite e).ty = e.ty := by
  induction e using children_induction with
  | h e ih =>
    intro hc
    have hnode : (e.mapChildren rewrite).Checked :=
      hc.mapChildren fun c hmem => ih c hmem (hc.child c hmem)
    rw [hup e, ← ty_mapChildren rewrite e]
    exact hstep _ hnode

/-- A property of a node that does not look at what is below the node. -/
def Shallow (P : Expr → Prop) : Prop :=
  ∀ g e, P e → P (e.mapChildren g)

/-- A step that adds nothing but nodes with a property adds none but them to whole
expressions, if a node keeps the property over rewritten parts. -/
theorem BottomUp.all (hup : BottomUp step rewrite) {P : Expr → Prop}
    (hP : ∀ e, e.Checked → P e → P (e.mapChildren rewrite))
    (hstep : ∀ e, e.Checked → (step e).Checked ∧ (step e).ty = e.ty)
    (hall : ∀ e, e.Checked → e.All P → (step e).All P) (e : Expr) :
    e.Checked → e.All P → (rewrite e).All P := by
  induction e using children_induction with
  | h e ih =>
    intro hc hns
    obtain ⟨hself, hbelow⟩ := all_iff_children.mp hns
    have hnode : (e.mapChildren rewrite).Checked :=
      hc.mapChildren fun c hmem => hup.checked hstep c (hc.child c hmem)
    rw [hup e]
    refine hall _ hnode (all_iff_children.mpr ⟨hP e hc hself, ?_⟩)
    rw [children_mapChildren, List.forall_mem_map]
    exact fun c hmem => ih c hmem (hc.child c hmem) (hbelow c hmem)

/-- A step that keeps the values of well-typed nodes with a property keeps those of whole
expressions of such nodes. -/
theorem BottomUp.refines (hup : BottomUp step rewrite) {P : Expr → Prop} (hP : Shallow P)
    {env : Env} (hstep : ∀ e, e.Checked → (step e).Checked ∧ (step e).ty = e.ty)
    (hvalue : ∀ e, e.Checked → P e → Refines env e env (step e)) (e : Expr) :
    e.Checked → e.All P → Refines env e env (rewrite e) := by
  induction e using children_induction with
  | h e ih =>
    intro hc hns
    obtain ⟨hself, hbelow⟩ := all_iff_children.mp hns
    have hnode : (e.mapChildren rewrite).Checked :=
      hc.mapChildren fun c hmem => hup.checked hstep c (hc.child c hmem)
    have hbelow' : Refines env e env (e.mapChildren rewrite) :=
      refines_mapChildren fun c hmem => ih c hmem (hc.child c hmem) (hbelow c hmem)
    rw [hup e]
    exact hbelow'.trans (hvalue _ hnode (hP _ _ hself))

end BottomUp

end Expr
end SeqQuery
