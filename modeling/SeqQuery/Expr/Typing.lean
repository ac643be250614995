/-
# Typing rules

Each kind of node has a rule that gives its type from the types of its parts, or the
reason why the parts do not fit. The functions named `mk…` build a node through its
rule, so an expression built by them alone is well-typed: `Expr.Checked` says so. What
a constant holds is not looked at again: a list takes the type of its first item.

Null joins any type that has the null value; nothing else is converted silently.

Key definitions: `Ty.join`, `UnaryOp.resultTy`, `BinaryOp.resultTy`, `Method.resultTy`,
`RecordTy.checkInits`, `Expr.mkConst`, `Expr.mkMember`, `Expr.mkUnary`, `Expr.mkBinary`,
`Expr.mkCond`, `Expr.mkCall`, `Expr.mkConstruct`, `Expr.Checked`.
-/
import SeqQuery.Expr
import SeqQuery.Expr.Error

namespace SeqQuery

/-! ### Rules -/

/-- The error of two types that do not fit. -/
def Ty.mismatch (expected actual : Ty) : ExprError :=
  .typeMismatch expected.name actual.name

/-- The common type of two types: null joins a type that has it, and else the two
are the same. -/
def Ty.join (a b : Ty) : Except ExprError Ty :=
  if a = b then .ok a
  else if a = .null ∧ b.isNullable then .ok b
  else if b = .null ∧ a.isNullable then .ok a
  else .error (a.mismatch b)

/-- The type of a member of a record type. -/
def Ty.memberTy (target : Ty) (name : String) : Except ExprError Ty :=
  match target.record? with
  | none => .error (.unknownMember name target.name)
  | some r =>
    match r.fields.find? name with
    | none => .error (.unknownMember name r.name)
    | some ty => .ok ty

/-- The type that an operator gives for an operand. -/
def UnaryOp.resultTy (op : UnaryOp) (operand : Ty) : Except ExprError Ty :=
  let mismatch := ExprError.typeMismatch "numeric or Bool" operand.name
  match op with
  | .not => if operand = .bool ∨ operand.isInteger then .ok operand else .error mismatch
  | .negate | .negateChecked | .plus => if operand.isNumeric then .ok operand else .error mismatch
  | .convert target => .ok target

/-- The type that an operator gives for two operands. -/
def BinaryOp.resultTy (op : BinaryOp) (left right : Ty) : Except ExprError Ty :=
  match op with
  | .arith _ =>
    if left.isNumeric ∧ left = right then .ok left else .error (left.mismatch right)
  | .shift _ =>
    if left.isInteger ∧ right = .int32 then .ok left else .error (left.mismatch right)
  | .bits _ =>
    if left = right ∧ (left.isInteger ∨ left = .bool) then .ok left
    else .error (left.mismatch right)
  | .equality _ => (left.join right).map fun _ => .bool
  | .relation _ =>
    if left = right ∧ left.isComparable then .ok .bool else .error (left.mismatch right)
  | .connective _ =>
    if left = .bool ∧ right = .bool then .ok .bool
    else .error (.typeMismatch "Bool" (left.name ++ " and " ++ right.name))
  | .concat =>
    if (left.join .string).isOk ∧ (right.join .string).isOk then .ok .string
    else .error (left.mismatch right)

/-- The object that a method is called on and its arguments, out of all operands. -/
def Method.split {α : Type} (method : Method) (operands : List α) : Option α × List α :=
  if method.isStatic then (none, operands) else (operands.head?, operands.tail)

/-- The type of a call by the types of the object and the arguments. -/
def Method.resultTy (method : Method) (object : Option Ty) (args : List Ty) : Except ExprError Ty :=
  let invalid (fault : Fault) : Except ExprError Ty := .error (.invalidOperation fault)
  if method.isStatic ∧ object.isSome then invalid (.objectOnStatic method)
  else if ¬ method.isStatic ∧ object.isNone then invalid (.objectMissing method)
  else
    match method, object, args with
    | .addDays, some .timestamp, [days] =>
      if days.isNumeric then .ok .timestamp else invalid (.noOverload method args)
    | .abs, none, [n] => if n.isNumeric then .ok n else invalid (.noOverload method args)
    | .toUpper, some .string, [] | .toLower, some .string, [] => .ok .string
    | .length, some .string, [] => .ok .int32
    | .startsWith, some .string, [.string] | .endsWith, some .string, [.string]
    | .contains, some .string, [.string] => .ok .bool
    | .now, none, [] => .ok .timestamp
    | _, _, _ => invalid (.noOverload method args)

/-- Checks that a field of one type can be set from an expression of another. -/
def Ty.checkInit (field init : Ty) : Except ExprError Unit := do
  let joined ← field.join init
  if joined = field then .ok () else .error (field.mismatch init)

/-- Checks the arguments that set the first fields by position. -/
def checkArgs : List Ty → List Ty → Except ExprError Unit
  | field :: fields, arg :: args => do
    field.checkInit arg
    checkArgs fields args
  | _, _ => .ok ()

/-- Checks the bindings that set fields by name, after `positional` arguments and
bindings of the fields at the positions `bound`. -/
def RecordTy.checkBindings (record : RecordTy) (positional : Nat) :
    List Nat → List (String × Ty) → Except ExprError Unit
  | _, [] => .ok ()
  | bound, (member, init) :: rest =>
    match record.fields.indexOf? member, record.fields.find? member with
    | some index, some field => do
      if index < positional then .error (.invalidOperation (.setByArgument member))
      if index ∈ bound then .error (.invalidOperation (.boundTwice member))
      field.checkInit init
      record.checkBindings positional (index :: bound) rest
    | _, _ => .error (.unknownMember member record.name)

/-- Checks everything that sets the fields of a new record. -/
def RecordTy.checkInits (record : RecordTy) (args : List Ty) (bindings : List (String × Ty)) :
    Except ExprError Unit := do
  if record.fields.length < args.length then
    .error (.invalidOperation (.tooManyArguments record.name record.fields.length args.length))
  checkArgs record.fields.types args
  record.checkBindings args.length [] bindings

/-! ### Building through the rules -/

namespace Expr

/-- A constant of the type that its value shows. -/
def ofValue (v : Value) : Expr :=
  .const v v.ty

/-- A constant of a stated type, such as a null text. -/
def mkConst (v : Value) (ty : Ty) : Except ExprError Expr :=
  if ty.admits v then .ok (.const v ty) else .error (.typeMismatch ty.name v.typeName)

/-- The member of a record. -/
def mkMember (target : Expr) (name : String) : Except ExprError Expr :=
  (target.ty.memberTy name).map (.member target name)

/-- An operator on one operand. -/
def mkUnary (op : UnaryOp) (operand : Expr) : Except ExprError Expr :=
  (op.resultTy operand.ty).map (.unary op operand)

/-- An operator on two operands. -/
def mkBinary (op : BinaryOp) (left right : Expr) : Except ExprError Expr :=
  (op.resultTy left.ty right.ty).map (.binary op left right)

/-- A choice between two expressions. -/
def mkCond (test ifTrue ifFalse : Expr) : Except ExprError Expr :=
  if test.ty = .bool then (ifTrue.ty.join ifFalse.ty).map (.cond test ifTrue ifFalse)
  else .error (Ty.bool.mismatch test.ty)

/-- A method call. -/
def mkCall (object : Option Expr) (method : Method) (args : List Expr) : Except ExprError Expr :=
  (method.resultTy (object.map ty) (args.map ty)).map (.call method (object.toList ++ args))

/-- A new record. -/
def mkConstruct (record : RecordTy) (args : List Expr) (bindings : List (String × Expr)) :
    Except ExprError Expr :=
  (record.checkInits (args.map ty) (bindings.map fun (m, e) => (m, e.ty))).map fun _ =>
    .construct record args bindings

/-! ### Well-typed expressions -/

mutual

/-- Every node has parts that its typing rule accepts and carries the type that the
rule gives. -/
def Checked : Expr → Prop
  | .const _ _ => True
  | .param _ => True
  | .member e name ty => Checked e ∧ e.ty.memberTy name = .ok ty
  | .unary op e ty => Checked e ∧ op.resultTy e.ty = .ok ty
  | .binary op l r ty => Checked l ∧ Checked r ∧ op.resultTy l.ty r.ty = .ok ty
  | .cond t a b ty => Checked t ∧ Checked a ∧ Checked b ∧ t.ty = .bool ∧ a.ty.join b.ty = .ok ty
  | .call method es ty =>
    CheckedAll es ∧
      method.resultTy (method.split (es.map Expr.ty)).1 (method.split (es.map Expr.ty)).2 = .ok ty
  | .construct record es bs =>
    CheckedAll es ∧ CheckedBindings bs ∧
      record.checkInits (es.map Expr.ty) (bs.map fun (m, e) => (m, e.ty)) = .ok ()

/-- Every expression of a list is well-typed. -/
def CheckedAll : List Expr → Prop
  | [] => True
  | e :: es => Checked e ∧ CheckedAll es

/-- Every named expression of a list is well-typed. -/
def CheckedBindings : List (String × Expr) → Prop
  | [] => True
  | (_, e) :: bs => Checked e ∧ CheckedBindings bs

end

end Expr
end SeqQuery
