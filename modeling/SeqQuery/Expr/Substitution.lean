/-
# Substitution

Putting an expression in the place of a parameter rebuilds every node by its typing
rule. A member that is read from a new record is resolved on the way to the
expression that sets the field, or to the field's zero when nothing sets it, so a
chain of projections that build records does not grow deeper with each step.

Key definitions: `RecordTy.initOf`, `Expr.readInit`, `Expr.subst`.
-/
import SeqQuery.Expr.Typing

namespace SeqQuery

/-- The expression that sets a field of a new record: an argument at the field's
position, a binding of its name, or else the zero of its type. A constant takes the
field's type, as an untyped null does. -/
def RecordTy.initOf (record : RecordTy) (args : List Expr) (bindings : List (String × Expr))
    (name : String) : Except ExprError Expr :=
  match record.fields.indexOf? name, record.fields.find? name with
  | some index, some field =>
    match (args[index]?).or (bindings.lookup name) with
    | none => Expr.mkConst field.zero field
    | some (.const v ty) => if ty = field then .ok (.const v ty) else Expr.mkConst v field
    | some init => .ok init
  | _, _ => .error (.unknownMember name record.name)

namespace Expr

/-- Reads a member, from the setting expression if the target is a new record. -/
def readMember (target : Expr) (name : String) : Except ExprError Expr :=
  match target with
  | .construct record args bindings => record.initOf args bindings name
  | target => mkMember target name

/-- Rebuilds a call from its operands. -/
def mkCallOf (method : Method) (operands : List Expr) : Except ExprError Expr :=
  mkCall (method.split operands).1 method (method.split operands).2

mutual

/-- Puts an expression in the place of the parameter with an identity. -/
def subst (id : Nat) (image : Expr) : Expr → Except ExprError Expr
  | .const v ty => .ok (.const v ty)
  | .param p => .ok (if p.id = id then image else .param p)
  | .member e name _ => do
    let target ← subst id image e
    target.readMember name
  | .unary op e _ => do
    let operand ← subst id image e
    mkUnary op operand
  | .binary op l r _ => do
    let left ← subst id image l
    let right ← subst id image r
    mkBinary op left right
  | .cond t a b _ => do
    let test ← subst id image t
    let ifTrue ← subst id image a
    let ifFalse ← subst id image b
    mkCond test ifTrue ifFalse
  | .call method es _ => do
    let operands ← substAll id image es
    mkCallOf method operands
  | .construct record es bs => do
    let args ← substAll id image es
    let bindings ← substBindings id image bs
    mkConstruct record args bindings

/-- Puts an expression in the place of a parameter in every expression of a list. -/
def substAll (id : Nat) (image : Expr) : List Expr → Except ExprError (List Expr)
  | [] => .ok []
  | e :: es => do
    let first ← subst id image e
    let rest ← substAll id image es
    .ok (first :: rest)

/-- Puts an expression in the place of a parameter in every named expression of a
list. -/
def substBindings (id : Nat) (image : Expr) :
    List (String × Expr) → Except ExprError (List (String × Expr))
  | [] => .ok []
  | (name, e) :: bs => do
    let first ← subst id image e
    let rest ← substBindings id image bs
    .ok ((name, first) :: rest)

end

end Expr
end SeqQuery
