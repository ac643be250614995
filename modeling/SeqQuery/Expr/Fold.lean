/-
# Folding constants

Folding works from the leaves up. At each node whose parts have been folded it
regroups a chain of one associative operator, so that its constants meet, drops a
connective that one constant side decides, and replaces an operation on constants by
its value. An operation whose evaluation fails stays as written: folding never
raises an error. Constants, parameters and new records are never evaluated.

Regrouping alone, without the other two, is `Expr.regroup`.

Nothing is rewritten in a settled expression: `Expr.isSettled` says so without
folding it, and `Expr.isRegrouped` says the same of regrouping.

Key definitions: `Expr.regroup?`, `Connective.kept?`, `Expr.simplify?`,
`Expr.evaluate?`, `Expr.fold`, `Expr.isSettled`, `Expr.regroup`, `Expr.isRegrouped`,
`Lambda.fold`.
-/
import SeqQuery.Expr.Eval

namespace SeqQuery

namespace Expr

/-! ### Rewrites at one node -/

/-- The result of an expression in a rewrite that may fail. -/
def ofBuild? : Except ExprError Expr → Option Expr
  | .ok e => some e
  | .error _ => none

/-- The constant of an inner operation and the other operand: the left side is looked
at first. -/
def constantAndRest? (left right : Expr) : Option (Value × Expr) :=
  match left.constant?, right.constant? with
  | some d, _ => some (d, right)
  | none, some d => some (d, left)
  | none, none => none

/-- Turns `c op (x op d)` and `c op (d op x)` into `x op (c op d)` for numbers `c` and
`d`, unless `c op d` fails. -/
def regroupOnto? (op : BinaryOp) (outer inner : Expr) : Option Expr :=
  match outer.constant?, inner with
  | some c, .binary innerOp left right _ =>
    if c.isNumeric ∧ innerOp = op then
      match constantAndRest? left right with
      | some (d, rest) =>
        match op.apply c d with
        | .ok v => ofBuild? (mkBinary op rest (ofValue v))
        | .error _ => none
      | none => none
    else none
  | _, _ => none

/-- Regroups an operation around a constant on either side. -/
def regroup? (op : BinaryOp) (left right : Expr) : Option Expr :=
  (regroupOnto? op left right).or (regroupOnto? op right left)

/-- A side of a binary operation. -/
inductive Side where
  | left
  | right
deriving DecidableEq, Repr

/-- The Boolean that a constant is. -/
def constantBool? (e : Expr) : Option Bool :=
  e.constant?.bind Value.bool?

/-- The side that a connective comes down to, if a constant decides it. -/
def keptSide? (op : Connective) (left right : Expr) : Option Side :=
  match op, left.constantBool?, right.constantBool? with
  | .and, some true, _ => some .right
  | .and, some false, _ => some .left
  | .and, none, some true => some .left
  | .or, some true, _ => some .left
  | .or, some false, _ => some .right
  | .or, none, some false => some .left
  | _, _, _ => none

/-- A simpler expression for a node, other than by evaluating it. -/
def simplify? : Expr → Option Expr
  | .binary (.connective op) left right _ =>
    (keptSide? op left right).map fun
      | .left => left
      | .right => right
  | .binary op left right _ => if op.isAssociative then regroup? op left right else none
  | _ => none

/-- Whether a node is an operation on constants alone that has the same value at any
time. -/
def isReady : Expr → Bool
  | .const _ _ | .param _ | .construct _ _ _ => false
  | .member e _ _ => e.isConstant
  | .unary _ e _ => e.isConstant
  | .binary _ l r _ => l.isConstant && r.isConstant
  | .cond t a b _ => t.isConstant && a.isConstant && b.isConstant
  | .call method es _ => method.isPure && es.all isConstant

/-- The value of an operation on constants, as a constant of the node's type. -/
def evaluate? (e : Expr) : Option Expr :=
  if e.isReady then
    match e.eval .empty with
    | .ok v => some (.const v e.ty)
    | .error _ => none
  else none

/-- What folding makes of a node whose parts have been folded. -/
def finish (e : Expr) : Expr :=
  let simpler := e.simplify?.getD e
  simpler.evaluate?.getD simpler

/-! ### Folding a whole expression -/

mutual

/-- Folds an expression. -/
def fold : Expr → Expr
  | .const v ty => .const v ty
  | .param p => .param p
  | .member e name ty => finish (.member (fold e) name ty)
  | .unary op e ty => finish (.unary op (fold e) ty)
  | .binary op l r ty => finish (.binary op (fold l) (fold r) ty)
  | .cond t a b ty => finish (.cond (fold t) (fold a) (fold b) ty)
  | .call method es ty => finish (.call method (foldAll es) ty)
  | .construct record es bs => .construct record (foldAll es) (foldBindings bs)

/-- Folds every expression of a list. -/
def foldAll : List Expr → List Expr
  | [] => []
  | e :: es => fold e :: foldAll es

/-- Folds every named expression of a list. -/
def foldBindings : List (String × Expr) → List (String × Expr)
  | [] => []
  | (name, e) :: bs => (name, fold e) :: foldBindings bs

end

/-- Whether folding has nothing to do at a node whose parts are settled. -/
def isFinished (e : Expr) : Bool :=
  e.simplify?.isNone && e.evaluate?.isNone

mutual

/-- Whether folding has nothing to do in an expression. -/
def isSettled : Expr → Bool
  | .const _ _ => true
  | .param _ => true
  | .member e name ty => isSettled e && isFinished (.member e name ty)
  | .unary op e ty => isSettled e && isFinished (.unary op e ty)
  | .binary op l r ty => isSettled l && isSettled r && isFinished (.binary op l r ty)
  | .cond t a b ty => isSettled t && isSettled a && isSettled b && isFinished (.cond t a b ty)
  | .call method es ty => allSettled es && isFinished (.call method es ty)
  | .construct _ es bs => allSettled es && bindingsSettled bs

/-- Whether folding has nothing to do in any expression of a list. -/
def allSettled : List Expr → Bool
  | [] => true
  | e :: es => isSettled e && allSettled es

/-- Whether folding has nothing to do in any named expression of a list. -/
def bindingsSettled : List (String × Expr) → Bool
  | [] => true
  | (_, e) :: bs => isSettled e && bindingsSettled bs

end

/-! ### Regrouping a whole expression -/

/-- Regroups a node whose parts have been regrouped. -/
def regroupNode (op : BinaryOp) (left right : Expr) (ty : Ty) : Expr :=
  (if op.isAssociative then regroup? op left right else none).getD (.binary op left right ty)

mutual

/-- Regroups the chains of associative operators in an expression. -/
def regroup : Expr → Expr
  | .const v ty => .const v ty
  | .param p => .param p
  | .member e name ty => .member (regroup e) name ty
  | .unary op e ty => .unary op (regroup e) ty
  | .binary op l r ty => regroupNode op (regroup l) (regroup r) ty
  | .cond t a b ty => .cond (regroup t) (regroup a) (regroup b) ty
  | .call method es ty => .call method (regroupAll es) ty
  | .construct record es bs => .construct record (regroupAll es) (regroupBindings bs)

/-- Regroups every expression of a list. -/
def regroupAll : List Expr → List Expr
  | [] => []
  | e :: es => regroup e :: regroupAll es

/-- Regroups every named expression of a list. -/
def regroupBindings : List (String × Expr) → List (String × Expr)
  | [] => []
  | (name, e) :: bs => (name, regroup e) :: regroupBindings bs

end

mutual

/-- Whether regrouping has nothing to do in an expression. -/
def isRegrouped : Expr → Bool
  | .const _ _ => true
  | .param _ => true
  | .member e _ _ => isRegrouped e
  | .unary _ e _ => isRegrouped e
  | .binary op l r _ =>
    isRegrouped l && isRegrouped r && !(op.isAssociative && (regroup? op l r).isSome)
  | .cond t a b _ => isRegrouped t && isRegrouped a && isRegrouped b
  | .call _ es _ => allRegrouped es
  | .construct _ es bs => allRegrouped es && bindingsRegrouped bs

/-- Whether regrouping has nothing to do in any expression of a list. -/
def allRegrouped : List Expr → Bool
  | [] => true
  | e :: es => isRegrouped e && allRegrouped es

/-- Whether regrouping has nothing to do in any named expression of a list. -/
def bindingsRegrouped : List (String × Expr) → Bool
  | [] => true
  | (_, e) :: bs => isRegrouped e && bindingsRegrouped bs

end

end Expr

/-- Folds the body of a lambda. -/
def Lambda.fold (f : Lambda) : Lambda :=
  ⟨f.param, f.body.fold⟩

end SeqQuery
