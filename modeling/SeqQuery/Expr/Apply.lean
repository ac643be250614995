/-
# Operators and methods on values

What an operator or method gives for values. Arithmetic on integers is computed on
the mathematical integers and then either wrapped or refused; arithmetic on singles
is done in doubles and rounded once.

A relation with null, or with a NaN, holds in neither direction.

Key definitions: `fits`, `UnaryOp.apply`, `Arith.onInts`, `Arith.onFloats`,
`BinaryOp.apply`, `compareRelational?`, `Method.apply`.
-/
import SeqQuery.Expr.Error
import SeqQuery.Decimal.Binary
import SeqQuery.Text.Case
import SeqQuery.Value.Coercion
import SeqQuery.Value.Order

namespace SeqQuery

/-- Whether an integer can be held in a number of bits. -/
def fits (bits : Nat) (n : Int) : Bool :=
  let bound : Int := Nat.pow 2 (bits - 1)
  n < bound && -bound ≤ n

/-- The integer, or an overflow if it cannot be held. -/
def inBits (bits : Nat) (operation : String) (n : Int) : Except ExprError Int :=
  if fits bits n then .ok n else .error (.overflow operation)

/-! ### One operand -/

/-- What an operator gives for a value. -/
def UnaryOp.apply (op : UnaryOp) (v : Value) : Except ExprError Value :=
  match op, v with
  | .not, .bool b => .ok (.bool !b)
  | .not, .int32 n => .ok (.int32 (~~~n))
  | .not, .int64 n => .ok (.int64 (~~~n))
  | .negate, .int32 n => .ok (.int32 (-n))
  | .negate, .int64 n => .ok (.int64 (-n))
  | .negateChecked, .int32 n =>
    (inBits 32 "NegateChecked" (-n.toInt)).map fun m => .int32 (Int32.ofInt m)
  | .negateChecked, .int64 n =>
    (inBits 64 "NegateChecked" (-n.toInt)).map fun m => .int64 (Int64.ofInt m)
  | .negate, .float32 x | .negateChecked, .float32 x => .ok (.float32 (-x))
  | .negate, .float64 x | .negateChecked, .float64 x => .ok (.float64 (-x))
  | .convert ty, v => (v.convert ty).mapError .value
  | op, v =>
    if op = .plus ∧ v.isNumeric then .ok v
    else .error (.invalidOperation (.badOperand op v.typeName))

/-! ### Two operands -/

/-- What an arithmetic operator gives for two integers that are held in a number of
bits. The result of an unchecked operator may need more bits; it is wrapped when it
is stored. -/
def Arith.onInts (op : Arith) (bits : Nat) (a b : Int) : Except ExprError Int :=
  match op with
  | .add => .ok (a + b)
  | .addChecked => inBits bits op.name (a + b)
  | .sub => .ok (a - b)
  | .subChecked => inBits bits op.name (a - b)
  | .mul => .ok (a * b)
  | .mulChecked => inBits bits op.name (a * b)
  | .div => if b = 0 then .error .divisionByZero else inBits bits op.name (a.tdiv b)
  | .rem =>
    if b = 0 then .error .divisionByZero
    else (inBits bits op.name (a.tdiv b)).map fun _ => a.tmod b

/-- What an arithmetic operator gives for two doubles. -/
def Arith.onFloats (op : Arith) (x y : Float) : Float :=
  match op with
  | .add | .addChecked => x + y
  | .sub | .subChecked => x - y
  | .mul | .mulChecked => x * y
  | .div => x / y
  | .rem => Binary.remainder x y

/-- The error of two values of different kinds. -/
def Value.mismatch (left right : Value) : ExprError :=
  .typeMismatch left.typeName right.typeName

/-- What an arithmetic operator gives for two values. -/
def Arith.apply (op : Arith) (left right : Value) : Except ExprError Value :=
  match left, right with
  | .int32 a, .int32 b => (op.onInts 32 a.toInt b.toInt).map fun n => .int32 (Int32.ofInt n)
  | .int64 a, .int64 b => (op.onInts 64 a.toInt b.toInt).map fun n => .int64 (Int64.ofInt n)
  | .float32 x, .float32 y => .ok (.float32 (nearestSingle (op.onFloats x.toFloat y.toFloat)))
  | .float64 x, .float64 y => .ok (.float64 (op.onFloats x y))
  | .bool _, .bool _ => .error (.typeMismatch "numeric" "Bool")
  | left, right => .error (left.mismatch right)

/-- What an operator on bits gives for two values. -/
def Bits.apply (op : Bits) (left right : Value) : Except ExprError Value :=
  match op, left, right with
  | .and, .int32 a, .int32 b => .ok (.int32 (a &&& b))
  | .or, .int32 a, .int32 b => .ok (.int32 (a ||| b))
  | .xor, .int32 a, .int32 b => .ok (.int32 (a ^^^ b))
  | .and, .int64 a, .int64 b => .ok (.int64 (a &&& b))
  | .or, .int64 a, .int64 b => .ok (.int64 (a ||| b))
  | .xor, .int64 a, .int64 b => .ok (.int64 (a ^^^ b))
  | .and, .bool a, .bool b => .ok (.bool (a && b))
  | .or, .bool a, .bool b => .ok (.bool (a || b))
  | .xor, .bool a, .bool b => .ok (.bool (a ^^ b))
  | op, .float32 _, .float32 _ | op, .float64 _, .float64 _ =>
    .error (.invalidOperation (.notOnFloats op))
  | _, left, right => .error (left.mismatch right)

/-- What a shift gives for two values. Only as many bits of the amount count as the
width of the shifted integer has a use for. -/
def Shift.apply (op : Shift) (left right : Value) : Except ExprError Value :=
  match right with
  | .int32 amount =>
    match op, left with
    | .left, .int32 a => .ok (.int32 (a <<< amount))
    | .right, .int32 a => .ok (.int32 (a >>> amount))
    | .left, .int64 a => .ok (.int64 (a <<< amount.toInt64))
    | .right, .int64 a => .ok (.int64 (a >>> amount.toInt64))
    | _, left => .error (.typeMismatch "integer" left.typeName)
  | right => .error (.typeMismatch "Int32" right.typeName)

/-- The order that relations see between two values. -/
def compareRelational? (left right : Value) : Option Ordering :=
  match left, right with
  | .string a, .string b => some (compare a b)
  | .timestamp a, .timestamp b => some (compare a.toInt b.toInt)
  | left, right => Value.compareNumbers? left right

/-- Whether a relation holds for an order; without an order none does. -/
def Relation.holds : Relation → Option Ordering → Bool
  | _, none => false
  | .lt, some o => o.isLT
  | .le, some o => o.isLE
  | .gt, some o => o.isGT
  | .ge, some o => o.isGE

/-- The text that a value contributes to a concatenation; null contributes none. -/
def Value.concatPart : Value → Except ExprError String
  | .null => .ok ""
  | .string s => .ok s
  | v => .error (.typeMismatch "String" v.typeName)

/-- What an operator gives for two values. -/
def BinaryOp.apply (op : BinaryOp) (left right : Value) : Except ExprError Value :=
  match op with
  | .arith op => op.apply left right
  | .bits op => op.apply left right
  | .shift op => op.apply left right
  | .equality .eq => .ok (.bool (left == right))
  | .equality .ne => .ok (.bool !(left == right))
  | .relation op => .ok (.bool (op.holds (compareRelational? left right)))
  | .connective op =>
    match op, left, right with
    | .and, .bool a, .bool b => .ok (.bool (a && b))
    | .or, .bool a, .bool b => .ok (.bool (a || b))
    | _, left, _ => .error (.typeMismatch "Bool" left.typeName)
  | .concat => do
    let first ← left.concatPart
    let second ← right.concatPart
    .ok (.string (first ++ second))

/-! ### Methods -/

/-- The time `days` after a time, to the nearest millisecond, a half going away from
zero. -/
def timeAfter (ms : Int64) (days : Float) : Except ExprError Value :=
  let millis := (days * 86400000.0).round
  if !millis.isFinite || 9223372036854775808.0 ≤ millis.abs then .error (.overflow "AddDays")
  else
    (inBits 64 "AddDays" (ms.toInt + millis.toInt64.toInt)).map fun n =>
      .timestamp (Int64.ofInt n)

/-- Whether one text occurs in another. -/
def occursIn (part : List Char) : List Char → Bool
  | [] => part.isEmpty
  | c :: rest => part.isPrefixOf (c :: rest) || occursIn part rest

/-- What a method gives for an object and arguments that it does not take. -/
def Method.refuse (method : Method) (object : Option Value) (args : List Value) :
    Except ExprError Value :=
  match object with
  | some .null => .error (.invalidOperation (.nullCall method))
  | _ => .error (.invalidOperation (.badArguments method (args.map Value.typeName)))

/-- What a method gives for the object it is called on, if any, and its arguments, at
a time `now`. -/
def Method.apply (now : Int64) (method : Method) (object : Option Value) (args : List Value) :
    Except ExprError Value :=
  match method with
  | .addDays =>
    match object, args with
    | some (.timestamp ms), [days] =>
      match days.float? with
      | some x => timeAfter ms x
      | none => .error (.typeMismatch "numeric" days.typeName)
    | _, _ => method.refuse object args
  | .abs =>
    match object, args with
    | none, [.int32 n] => (inBits 32 "Abs" n.toInt.natAbs).map fun m => .int32 (Int32.ofInt m)
    | none, [.int64 n] => (inBits 64 "Abs" n.toInt.natAbs).map fun m => .int64 (Int64.ofInt m)
    | none, [.float32 x] => .ok (.float32 x.abs)
    | none, [.float64 x] => .ok (.float64 x.abs)
    | _, _ => method.refuse object args
  | .toUpper =>
    match object, args with
    | some (.string s), [] => .ok (.string (Text.upper s))
    | _, _ => method.refuse object args
  | .toLower =>
    match object, args with
    | some (.string s), [] => .ok (.string (Text.lower s))
    | _, _ => method.refuse object args
  | .length =>
    match object, args with
    | some (.string s), [] => (inBits 32 "Length" s.length).map fun n => .int32 (Int32.ofInt n)
    | _, _ => method.refuse object args
  | .startsWith =>
    match object, args with
    | some (.string s), [.string part] => .ok (.bool (part.toList.isPrefixOf s.toList))
    | _, _ => method.refuse object args
  | .endsWith =>
    match object, args with
    | some (.string s), [.string part] => .ok (.bool (part.toList.isSuffixOf s.toList))
    | _, _ => method.refuse object args
  | .contains =>
    match object, args with
    | some (.string s), [.string part] => .ok (.bool (occursIn part.toList s.toList))
    | _, _ => method.refuse object args
  | .now =>
    match object, args with
    | none, [] => .ok (.timestamp now)
    | _, _ => method.refuse object args

end SeqQuery
