/-
# Conversions between types

A value that already is an instance of the target is left as it is. Between numbers
a conversion always succeeds: an integer wraps into a narrower one, a number becomes
the nearest floating-point number, and a floating-point number loses its fraction
and is held to the ends of an integer type. The checked conversion refuses where the
plain one would wrap or hold.

Key definitions: `Value.convert`, `Value.convertChecked`.
-/
import SeqQuery.Decimal.Binary
import SeqQuery.Value

namespace SeqQuery.Value

/-- The integer as a value of another type. -/
def ofInteger? (n : Int64) : Ty → Option Value
  | .int32 => some (.int32 n.toInt32)
  | .int64 => some (.int64 n)
  | .float32 => some (.float32 n.toFloat32)
  | .float64 => some (.float64 n.toFloat)
  | .timestamp => some (.timestamp n)
  | _ => none

/-- The floating-point number as a value of another numeric type. -/
def ofFloating? (x : Float) : Ty → Option Value
  | .int32 => some (.int32 x.toInt32)
  | .int64 => some (.int64 x.toInt64)
  | .float32 => some (.float32 (nearestSingle x))
  | .float64 => some (.float64 x)
  | _ => none

/-- The error of a value that has no counterpart in a type. -/
def coercionError (v : Value) (ty : Ty) : ValueError :=
  .coercion v.typeName ty.name

/-- The conversion of a value that is not an instance of the target. -/
def convert? : Value → Ty → Option Value
  | .int32 n, ty => ofInteger? n.toInt64 ty
  | .int64 n, ty => ofInteger? n ty
  | .float32 x, ty => ofFloating? x.toFloat ty
  | .float64 x, ty => ofFloating? x ty
  | .timestamp ms, .int64 => some (.int64 ms)
  | _, _ => none

/-- The value as an instance of a type. Integers wrap and floating-point numbers
are held to the range of an integer type. -/
def convert (v : Value) (ty : Ty) : Except ValueError Value :=
  if ty.admits v then .ok v
  else
    match v.convert? ty with
    | some w => .ok w
    | none => .error (v.coercionError ty)

/-- A floating-point number without its fraction. -/
def truncate (x : Float) : Float :=
  if x < 0 then x.ceil else x.floor

/-- The integer type's value for a floating-point number, if the number without its
fraction lies in the type's range. -/
def ofFloatingInRange? (x : Float) : Ty → Option Value
  | .int32 =>
    let whole := truncate x
    if x.isFinite && -2147483648.0 ≤ whole && whole ≤ 2147483647.0 then some (.int32 whole.toInt32)
    else none
  | .int64 =>
    let whole := truncate x
    if x.isFinite && -9223372036854775808.0 ≤ whole && whole < 9223372036854775808.0 then
      some (.int64 whole.toInt64)
    else none
  | _ => none

/-- The value as an instance of a type, refused where an integer would wrap or a
floating-point number be held to a range. -/
def convertChecked (v : Value) (ty : Ty) : Except ValueError Value :=
  match v, ty with
  | .int64 n, .int32 =>
    if n.toInt32.toInt64 = n then .ok (.int32 n.toInt32) else .error (v.coercionError ty)
  | .float32 x, .int32 | .float32 x, .int64 =>
    ((ofFloatingInRange? x.toFloat ty).map Except.ok).getD (.error (v.coercionError ty))
  | .float64 x, .int32 | .float64 x, .int64 =>
    ((ofFloatingInRange? x ty).map Except.ok).getD (.error (v.coercionError ty))
  | v, ty => v.convert ty

end SeqQuery.Value
