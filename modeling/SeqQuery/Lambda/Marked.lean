/-
# Marked lambdas

Lambdas that are joined, folded and put over other parameters share nodes. A marked
lambda remembers the marks of its body, so that one can ask whether it has the very
body of another, and whether the two are equal when a node is equal to itself.

The operations are those of `Lambda`; the marks never decide what an operation gives.
Lambdas are collected in a `LambdaTable`, which marks the nodes that are new to it.

Key definitions: `MarkedLambda`, `MarkedLambda.hasBodyOf`, `MarkedLambda.andThen`,
`MarkedLambda.withParam`, `MarkedLambda.conjoin`, `MarkedLambda.negate`,
`MarkedLambda.fold`, `LambdaTable`.
Key theorems: `MarkedLambda.map_lambda_andThen`, `MarkedLambda.map_lambda_withParam`,
`MarkedLambda.map_lambda_conjoin`, `MarkedLambda.map_lambda_negate`.
-/
import SeqQuery.Expr.Marks
import SeqQuery.Lambda

namespace SeqQuery

/-- A lambda and the marks of its body. -/
structure MarkedLambda where
  lambda : Lambda
  marks : Marks
deriving Inhabited

namespace MarkedLambda

/-- A lambda whose nodes have just been made. -/
def ofLambda (f : Lambda) : MarkedLambda :=
  ⟨f, .ofExpr f.body⟩

/-- Whether a lambda has the very body of another. -/
def hasBodyOf (f g : MarkedLambda) : Bool :=
  f.marks.isNode g.marks

/-- Marked lambdas are equal when they have the same parameter and equal bodies. -/
instance : BEq MarkedLambda :=
  ⟨fun f g => f.lambda.param == g.lambda.param &&
    Expr.beqMarked f.lambda.body f.marks g.lambda.body g.marks⟩

/-- The marks of a body with an image in the place of the parameter. -/
def substMarks (f : MarkedLambda) (image : Expr) (imageMarks : Marks) : Marks :=
  Expr.substMarks f.lambda.param.id image imageMarks f.lambda.body f.marks

/-- The marks of a composition. -/
def andThenMarks (f g : MarkedLambda) : Marks :=
  if g.lambda.isIdentity then f.marks
  else
    match Expr.subst g.lambda.param.id f.lambda.body g.lambda.body with
    | .ok body => Expr.foldMarks body (g.substMarks f.lambda.body f.marks)
    | .error _ => .new

/-- The composition that applies `f` first and `g` to its result. -/
def andThen (f g : MarkedLambda) : Except ExprError MarkedLambda :=
  (f.lambda.andThen g.lambda).map fun joined => ⟨joined, f.andThenMarks g⟩

/-- The same function over another parameter of the same type. -/
def withParam (f : MarkedLambda) (p : Param) : Except ExprError MarkedLambda :=
  (f.lambda.withParam p).map fun aligned =>
    ⟨aligned, if f.lambda.param == p then f.marks else f.substMarks (.param p) .new⟩

/-- The marks of a joined predicate. -/
def conjoinMarks (first second : MarkedLambda) : Marks :=
  match second.withParam first.lambda.param with
  | .error _ => .new
  | .ok aligned =>
    match Expr.mkBinary (.connective .and) first.lambda.body aligned.lambda.body with
    | .ok body => Expr.foldMarks body (.node none [first.marks, aligned.marks])
    | .error _ => .new

/-- The predicate that holds where both hold. -/
def conjoin (first second : MarkedLambda) : Except ExprError MarkedLambda :=
  (first.lambda.conjoin second.lambda).map fun joined => ⟨joined, first.conjoinMarks second⟩

/-- The predicate that holds where the given one does not. -/
def negate (f : MarkedLambda) : Except ExprError MarkedLambda :=
  f.lambda.negate.map fun negated => ⟨negated, f.lambda.body.negateMarks f.marks⟩

/-- A lambda with its body folded. -/
def fold (f : MarkedLambda) : MarkedLambda :=
  ⟨f.lambda.fold, Expr.foldMarks f.lambda.body f.marks⟩

/-! ### Marks decide nothing -/

/-- Composing marked lambdas composes the lambdas. -/
theorem map_lambda_andThen (f g : MarkedLambda) :
    (f.andThen g).map lambda = f.lambda.andThen g.lambda := by
  unfold andThen
  cases f.lambda.andThen g.lambda <;> rfl

/-- Putting a marked lambda over another parameter does so with the lambda. -/
theorem map_lambda_withParam (f : MarkedLambda) (p : Param) :
    (f.withParam p).map lambda = f.lambda.withParam p := by
  unfold withParam
  cases f.lambda.withParam p <;> rfl

/-- Joining marked predicates joins the predicates. -/
theorem map_lambda_conjoin (first second : MarkedLambda) :
    (first.conjoin second).map lambda = first.lambda.conjoin second.lambda := by
  unfold conjoin
  cases first.lambda.conjoin second.lambda <;> rfl

/-- Negating a marked predicate negates the predicate. -/
theorem map_lambda_negate (f : MarkedLambda) : f.negate.map lambda = f.lambda.negate := by
  unfold negate
  cases f.lambda.negate <;> rfl

end MarkedLambda

/-- Lambdas in the order in which they were added, and the next mark that is free. -/
structure LambdaTable where
  entries : Array MarkedLambda
  next : Nat

namespace LambdaTable

/-- The table without a lambda. -/
def empty : LambdaTable :=
  ⟨#[], 0⟩

/-- Adds a lambda and marks its new nodes. -/
def add (t : LambdaTable) (f : MarkedLambda) : LambdaTable :=
  let (marks, next) := f.marks.fill t.next
  ⟨t.entries.push ⟨f.lambda, marks⟩, next⟩

end LambdaTable
end SeqQuery
