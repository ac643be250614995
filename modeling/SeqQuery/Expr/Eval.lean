/-
# Evaluation

An expression is evaluated under values for its parameters. Operands are evaluated
from left to right and the first error ends the evaluation; a connective and a
choice evaluate only the sides they need. The time of day is part of the
environment.

Key definitions: `Env`, `Expr.eval`, `Expr.evalBool`, `Lambda.apply`, `Lambda.test`.
-/
import SeqQuery.Expr.Apply
import SeqQuery.Expr.Typing

namespace SeqQuery

/-- What an expression is evaluated under: the time in milliseconds from the epoch,
and the values of parameters by identity. -/
structure Env where
  now : Int64
  values : List (Nat × Value)
deriving Inhabited

namespace Env

/-- No parameter has a value. -/
def empty : Env := ⟨0, []⟩

/-- One parameter has a value. -/
def single (now : Int64) (p : Param) (v : Value) : Env := ⟨now, [(p.id, v)]⟩

/-- The value of a parameter. -/
def find? (env : Env) (p : Param) : Option Value :=
  env.values.lookup p.id

/-- Whether no parameter has a value. -/
def isEmpty (env : Env) : Bool :=
  env.values.isEmpty

end Env

/-- The Boolean that a value has to be. -/
def Value.expectBool : Value → Except ExprError Bool
  | .bool b => .ok b
  | v => .error (.typeMismatch "Bool" v.typeName)

/-- The member that a value has to have. -/
def Value.readMember (name : String) : Value → Except ExprError Value
  | .record ty values =>
    match Value.field? name (.record ty values) with
    | some v => .ok v
    | none => .error (.unknownMember name ty.name)
  | .null => .error (.invalidOperation (.nullRead name))
  | v => .error (.unknownMember name v.typeName)

/-- Sets fields by name, one after the other. -/
def RecordTy.setFields (record : RecordTy) :
    List Value → List (String × Value) → Except ExprError (List Value)
  | values, [] => .ok values
  | values, (name, v) :: rest =>
    match record.fields.indexOf? name with
    | some index => record.setFields (values.set index v) rest
    | none => .error (.unknownMember name record.name)

/-- A new record: the first fields by position, others by name, the rest zero. -/
def RecordTy.build (record : RecordTy) (args : List Value) (bindings : List (String × Value)) :
    Except ExprError Value := do
  let zeros := record.fields.types.map Ty.zero
  let values ← record.setFields (args ++ zeros.drop args.length) bindings
  (Value.ofRecord? record values).mapError .value

namespace Expr

mutual

/-- The value of an expression. -/
def eval (env : Env) : Expr → Except ExprError Value
  | .const v _ => .ok v
  | .param p =>
    match env.find? p with
    | some v => .ok v
    | none => .error (.unboundParameter p.name)
  | .member e name _ => do
    let v ← eval env e
    v.readMember name
  | .unary op e _ => do
    let v ← eval env e
    op.apply v
  | .binary (.connective .and) l r _ => do
    let a ← (← eval env l).expectBool
    if a then
      let b ← (← eval env r).expectBool
      .ok (.bool b)
    else .ok (.bool false)
  | .binary (.connective .or) l r _ => do
    let a ← (← eval env l).expectBool
    if a then .ok (.bool true)
    else
      let b ← (← eval env r).expectBool
      .ok (.bool b)
  | .binary op l r _ => do
    let v ← eval env l
    let w ← eval env r
    op.apply v w
  | .cond t a b _ => do
    if (← (← eval env t).expectBool) then eval env a else eval env b
  | .call method es _ => do
    let vs ← evalAll env es
    method.apply env.now (method.split vs).1 (method.split vs).2
  | .construct record es bs => do
    let vs ← evalAll env es
    let ws ← evalBindings env bs
    record.build vs ws

/-- The values of a list of expressions. -/
def evalAll (env : Env) : List Expr → Except ExprError (List Value)
  | [] => .ok []
  | e :: es => do
    let v ← eval env e
    let vs ← evalAll env es
    .ok (v :: vs)

/-- The values of a list of named expressions. -/
def evalBindings (env : Env) : List (String × Expr) → Except ExprError (List (String × Value))
  | [] => .ok []
  | (name, e) :: bs => do
    let v ← eval env e
    let vs ← evalBindings env bs
    .ok ((name, v) :: vs)

end

/-- The value of an expression that has to be a Boolean. -/
def evalBool (env : Env) (e : Expr) : Except ExprError Bool := do
  (← e.eval env).expectBool

end Expr

namespace Lambda

/-- The result of a lambda for an argument. -/
def apply (now : Int64) (f : Lambda) (v : Value) : Except ExprError Value :=
  f.body.eval (.single now f.param v)

/-- Whether an argument passes a predicate. -/
def test (now : Int64) (f : Lambda) (v : Value) : Except ExprError Bool :=
  f.body.evalBool (.single now f.param v)

end Lambda
end SeqQuery
