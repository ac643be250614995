/-
# Joining lambdas

Two projections compose into one, two predicates over one type join into one, and a
predicate can be negated. A lambda can be put over another parameter of its type.
The body of a composed or joined lambda is folded.

Key definitions: `Lambda.andThen`, `Lambda.withParam`, `Lambda.conjoin`, `Lambda.negate`,
`Expr.negate`.
-/
import SeqQuery.Expr.Fold
import SeqQuery.Expr.Substitution

namespace SeqQuery

/-- The logical negation of an expression. A negation loses its `!`. -/
def Expr.negate : Expr → Except ExprError Expr
  | .unary .not e _ => .ok e
  | e => Expr.mkUnary .not e

namespace Lambda

/-- The composition that applies `f` first and `g` to its result. -/
def andThen (f g : Lambda) : Except ExprError Lambda :=
  if g.paramTy = f.returnTy then
    if g.isIdentity then .ok f
    else (Expr.subst g.param.id f.body g.body).map fun body => ⟨f.param, body.fold⟩
  else .error (g.paramTy.mismatch f.returnTy)

/-- The same function over another parameter of the same type. -/
def withParam (f : Lambda) (p : Param) : Except ExprError Lambda :=
  if f.param == p then .ok f
  else if f.paramTy = p.ty then
    (Expr.subst f.param.id (.param p) f.body).map fun body => ⟨p, body⟩
  else .error (p.ty.mismatch f.paramTy)

/-- The predicate that holds where both hold. It has the parameter of the first and
asks the second only where the first holds. -/
def conjoin (first second : Lambda) : Except ExprError Lambda := do
  let aligned ← second.withParam first.param
  let body ← Expr.mkBinary (.connective .and) first.body aligned.body
  .ok ⟨first.param, body.fold⟩

/-- The predicate that holds where the given one does not. -/
def negate (f : Lambda) : Except ExprError Lambda :=
  f.body.negate.map fun body => ⟨f.param, body⟩

end Lambda
end SeqQuery
