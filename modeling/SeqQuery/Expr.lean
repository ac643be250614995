/-
# Expressions and lambdas

Predicates, projections and sort keys are functions of one parameter whose body is a
tree of operations. Every node carries its static type, so that a rewrite can keep
the type of a node it rebuilds; a node that the functions of `SeqQuery.Expr.Typing`
made carries the type that the typing rules give it.

A parameter is known by its identity and not by its name: two parameters named `x`
are different unless they have the same identity.

Key definitions: `Param`, `Expr`, `Lambda`, `Expr.ty`, `Expr.beq`, `Expr.constant?`,
`Lambda.identity`, `Lambda.isIdentity`.
-/
import SeqQuery.Expr.Operator
import SeqQuery.Value

namespace SeqQuery

/-- A parameter of a lambda. -/
structure Param where
  id : Nat
  name : String
  ty : Ty
deriving Inhabited

/-- Parameters are equal when they have the same identity. -/
instance : BEq Param := ⟨fun p q => p.id == q.id⟩

/-- An expression. The operands of a `call` start with the object that the method is
called on, if it is called on one. A `construct` gives the first fields of a record
by position and others by name; the rest get their zero. -/
inductive Expr where
  | const (value : Value) (ty : Ty)
  | param (p : Param)
  | member (target : Expr) (name : String) (ty : Ty)
  | unary (op : UnaryOp) (operand : Expr) (ty : Ty)
  | binary (op : BinaryOp) (left right : Expr) (ty : Ty)
  | cond (test ifTrue ifFalse : Expr) (ty : Ty)
  | call (method : Method) (operands : List Expr) (ty : Ty)
  | construct (record : RecordTy) (args : List Expr) (bindings : List (String × Expr))
deriving Inhabited

/-- A function of one parameter. -/
structure Lambda where
  param : Param
  body : Expr
deriving Inhabited

namespace Expr

/-- The static type of an expression. -/
def ty : Expr → Ty
  | .const _ ty => ty
  | .param p => p.ty
  | .member _ _ ty => ty
  | .unary _ _ ty => ty
  | .binary _ _ _ ty => ty
  | .cond _ _ _ ty => ty
  | .call _ _ ty => ty
  | .construct record _ _ => record.ty

/-- The value of a constant. -/
def constant? : Expr → Option Value
  | .const value _ => some value
  | _ => none

/-- Whether an expression is a constant. -/
def isConstant (e : Expr) : Bool :=
  e.constant?.isSome

mutual

/-- Whether two expressions are the same tree. Constants compare as values do at run
time and parameters by identity. -/
def beq : Expr → Expr → Bool
  | .const v s, .const w t => v == w && s == t
  | .param p, .param q => p == q
  | .member e m s, .member f n t => beq e f && m == n && s == t
  | .unary o e s, .unary p f t => o == p && beq e f && s == t
  | .binary o e e' s, .binary p f f' t => o == p && beq e f && beq e' f' && s == t
  | .cond e e' e'' s, .cond f f' f'' t => beq e f && beq e' f' && beq e'' f'' && s == t
  | .call m es s, .call n fs t => m == n && beqAll es fs && s == t
  | .construct r es bs, .construct s fs cs => r == s && beqAll es fs && beqBindings bs cs
  | _, _ => false

/-- Whether two lists of expressions are the same tree by tree. -/
def beqAll : List Expr → List Expr → Bool
  | [], [] => true
  | e :: es, f :: fs => beq e f && beqAll es fs
  | _, _ => false

/-- Whether two lists of named expressions are the same one by one. -/
def beqBindings : List (String × Expr) → List (String × Expr) → Bool
  | [], [] => true
  | (m, e) :: bs, (n, f) :: cs => m == n && beq e f && beqBindings bs cs
  | _, _ => false

end

instance : BEq Expr := ⟨beq⟩

end Expr

namespace Lambda

/-- Lambdas are equal when they have the same parameter and equal bodies. -/
instance : BEq Lambda := ⟨fun f g => f.param == g.param && f.body == g.body⟩

/-- The type of the argument. -/
def paramTy (f : Lambda) : Ty :=
  f.param.ty

/-- The type of the result. -/
def returnTy (f : Lambda) : Ty :=
  f.body.ty

/-- The function that gives back its argument. -/
def identity (p : Param) : Lambda :=
  ⟨p, .param p⟩

/-- Whether a lambda is plainly an identity: its body is its own parameter. -/
def isIdentity (f : Lambda) : Bool :=
  match f.body with
  | .param p => p == f.param
  | _ => false

/-- The identity gives back its own parameter. -/
theorem isIdentity_identity (p : Param) : (identity p).isIdentity := by
  simp [identity, isIdentity, BEq.beq]

end Lambda
end SeqQuery
