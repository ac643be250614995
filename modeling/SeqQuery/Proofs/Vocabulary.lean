/-
# Vocabularies

What lambdas are made of matters as much as that they are well-typed: whether their
constants are deep, whether they speak of their own parameter alone, whether they add
floating-point numbers. A vocabulary says which constants, parameters and operations may
stand at a node, and `Expr.Over` that an expression is well-typed and made of nothing else.

A vocabulary is closed when it has all that folding and substitution put into an
expression. Then both stay within it, whatever the expressions are.

Key definitions: `Vocabulary`, `Vocabulary.Allows`, `Vocabulary.Closed`, `Expr.Over`,
`Vocabulary.noFloatSum`.
Key theorems: `Vocabulary.allows_shallow`, `Expr.Over.fold`, `Expr.Over.regroup`,
`Vocabulary.closed_noFloatSum`.
-/
import SeqQuery.Proofs.Folding

namespace SeqQuery

/-- What may stand at a node. An operation that is not on two operands is known by the
type of its result alone. -/
structure Vocabulary where
  const : Value → Ty → Prop
  param : Param → Prop
  binary : BinaryOp → Ty → Prop
  other : Ty → Prop

namespace Vocabulary

variable {V : Vocabulary}

/-- Whether a node may stand in an expression, whatever is below it. -/
def Allows (V : Vocabulary) : Expr → Prop
  | .const v ty => V.const v ty
  | .param p => V.param p
  | .binary op _ _ ty => V.binary op ty
  | e => V.other e.ty

theorem allows_shallow (V : Vocabulary) : Expr.Shallow V.Allows := by
  intro g e h
  cases e <;> exact h

/-- Whether all that folding and substitution add is in a vocabulary. -/
structure Closed (V : Vocabulary) : Prop where
  /-- a choice between narrower sides -/
  narrow : ∀ {narrow wide : Ty}, narrow.Narrows wide → V.other wide → V.other narrow
  /-- a field that nothing sets -/
  zero : ∀ {r : RecordTy} {field : Ty}, V.other r.ty → field ∈ r.fields.types →
    V.const field.zero field
  /-- a constant that takes the type of the field it sets -/
  retype : ∀ {r : RecordTy} {field : Ty} {v : Value} {ty : Ty}, V.other r.ty →
    field ∈ r.fields.types → V.const v ty → field.admits v → V.const v field
  /-- a combined constant of a chain -/
  combined : ∀ {op : BinaryOp} {v : Value}, V.binary op v.ty → v.ty.isNumeric → V.const v v.ty
  /-- the value of an operation on constants -/
  evaluated : ∀ {e : Expr} {v : Value}, e.Checked → e.All V.Allows → e.isReady →
    e.eval .empty = .ok v → V.const v e.ty

/-- All but sums and products of floating-point numbers. -/
def noFloatSum : Vocabulary where
  const _ _ := True
  param _ := True
  binary op ty := (op.isAssociative && ty.isFloat) = false
  other _ := True

theorem allows_noFloatSum {e : Expr} : noFloatSum.Allows e ↔ e.isFloatSum = false := by
  cases e <;> simp [Allows, noFloatSum, Expr.isFloatSum]

theorem closed_noFloatSum : noFloatSum.Closed where
  narrow _ h := h
  zero _ _ := trivial
  retype _ _ _ _ := trivial
  combined _ _ := trivial
  evaluated _ _ _ _ := trivial

end Vocabulary

namespace Expr

variable {V : Vocabulary}

/-- Well-typed, and of nothing but what a vocabulary allows. -/
structure Over (V : Vocabulary) (e : Expr) : Prop where
  checked : e.Checked
  allowed : e.All V.Allows

theorem Over.child {e : Expr} (he : e.Over V) : ∀ c ∈ e.children, c.Over V := fun c hmem =>
  ⟨he.checked.child c hmem, (all_iff_children.mp he.allowed).2 c hmem⟩

theorem Over.binary {op : BinaryOp} {l r : Expr} {ty : Ty} (h : (Expr.binary op l r ty).Over V) :
    l.Over V ∧ r.Over V :=
  ⟨h.child l (by simp [children]), h.child r (by simp [children])⟩

/-- A node over other expressions of the same types stays within a vocabulary if they do. -/
theorem Over.mapChildren {g : Expr → Expr} {e : Expr} (he : e.Over V)
    (h : ∀ c ∈ e.children, (g c).Over V ∧ (g c).ty = c.ty) : (e.mapChildren g).Over V := by
  constructor
  · exact he.checked.mapChildren fun c hmem => ⟨(h c hmem).1.checked, (h c hmem).2⟩
  · refine all_iff_children.mpr ⟨V.allows_shallow _ _ he.allowed.self, ?_⟩
    rw [children_mapChildren, List.forall_mem_map]
    exact fun c hmem => (h c hmem).1.allowed

/-! ### Folding stays within a vocabulary -/

theorem all_ofValue {P : Expr → Prop} {v : Value} : (ofValue v).All P ↔ P (.const v v.ty) :=
  all_const

theorem regroupOnto?_all (hV : V.Closed) {op : Arith} {outer inner e : Expr}
    (h : regroupOnto? (.arith op) outer inner = some e) (hinner : inner.Over V) :
    e.All V.Allows := by
  obtain ⟨c, s, l, r, ty, d, rest, cd, -, rfl, hrest, -, hmk⟩ := regroupOnto?_eq_some h
  obtain ⟨hself, hl, hr⟩ := all_binary.mp hinner.allowed
  obtain ⟨ty', hty', rfl⟩ := mkBinary_eq_ok.mp hmk
  have hrestall : rest.All V.Allows := by
    rcases hrest with ⟨t, -, rfl⟩ | ⟨t, -, rfl⟩
    · exact hr
    · exact hl
  obtain ⟨-, hty⟩ := regroupOnto?_checked h hinner.checked
  obtain ⟨hnum, hcd, rfl⟩ := BinaryOp.resultTy_arith.mp hty'
  replace hty : rest.ty = ty := hty
  replace hself : V.binary (.arith op) ty := hself
  rw [← hty] at hself
  refine all_binary.mpr ⟨hself, hrestall, all_ofValue.mpr ?_⟩
  replace hcd : rest.ty = cd.ty := hcd
  rw [hcd] at hself hnum
  exact hV.combined hself hnum

theorem regroup?_all (hV : V.Closed) {op : BinaryOp} (hop : op.isAssociative) {l r e : Expr}
    {ty : Ty} (h : regroup? op l r = some e) (he : (Expr.binary op l r ty).Over V) :
    e.All V.Allows := by
  obtain ⟨outer, inner, hinner, h⟩ := regroup?_eq_some h
  cases op with
  | arith op => exact regroupOnto?_all hV h (he.child inner hinner)
  | _ => cases hop

theorem simplify?_all (hV : V.Closed) {e e' : Expr} (h : e.simplify? = some e')
    (he : e.Over V) : e'.All V.Allows := by
  rcases simplify?_eq_some h with
    ⟨op, l, r, ty, side, rfl, -, rfl⟩ | ⟨op, l, r, ty, rfl, hop, h⟩
  · obtain ⟨hl, hr⟩ := he.binary
    cases side with
    | left => exact hl.allowed
    | right => exact hr.allowed
  · exact regroup?_all hV hop h he

theorem Over.finish (hV : V.Closed) {e : Expr} (he : e.Over V) : e.finish.Over V := by
  refine finish_induction (motive := Over V) e he (fun e' h => ?_) fun s e' hs h => ?_
  · exact ⟨(simplify?_checked h he.checked).1, simplify?_all hV h he⟩
  · obtain ⟨hready, v, hv, rfl⟩ := evaluate?_eq_some h
    exact ⟨trivial, all_const.mpr (hV.evaluated hs.checked hs.allowed hready hv)⟩

/-- Folding stays within a closed vocabulary. -/
theorem Over.fold (hV : V.Closed) {e : Expr} (he : e.Over V) : e.fold.Over V where
  checked := (fold_checked he.checked).1
  allowed := fold_bottomUp.all (fun e _ => V.allows_shallow _ e) finish_checked
    (fun _ hc hall => (Over.finish hV ⟨hc, hall⟩).allowed) e he.checked he.allowed

/-- Folding what is right below a node stays within a closed vocabulary. -/
theorem Over.mapChildren_fold (hV : V.Closed) {e : Expr} (he : e.Over V) :
    (e.mapChildren Expr.fold).Over V :=
  he.mapChildren fun c hmem =>
    ⟨(he.child c hmem).fold hV, (fold_checked (he.child c hmem).checked).2⟩

theorem regroupStep_all (hV : V.Closed) {e : Expr} (he : e.Over V) :
    (regroupStep e).All V.Allows := by
  cases e with
  | binary op l r ty =>
    rw [regroupStep_binary]
    split
    · next hop =>
      cases h : regroup? op l r with
      | none => exact he.allowed
      | some e' => exact regroup?_all hV hop h he
    · exact he.allowed
  | _ => exact he.allowed

/-- Regrouping stays within a closed vocabulary. -/
theorem Over.regroup (hV : V.Closed) {e : Expr} (he : e.Over V) : e.regroup.Over V where
  checked := (regroup_checked he.checked).1
  allowed := regroup_bottomUp.all (fun e _ => V.allows_shallow _ e) regroupStep_checked
    (fun _ hc hall => regroupStep_all hV ⟨hc, hall⟩) e he.checked he.allowed

end Expr
end SeqQuery
