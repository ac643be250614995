/-
# Values

A value is what an expression evaluates to and what a query yields: null, a scalar
of one of the widths, a record or a list. A record holds one value per field of its
type; only their number is checked when it is made, so `Ty.admits`, which looks at
a record's type alone, says less about a record than about a scalar.

Equality is that of the program at run time: two floating-point numbers compare as
numbers, so a NaN differs from itself and the two zeros are equal.

Key definitions: `Value`, `ValueError`, `Value.ofRecord?`, `Value.beq`,
`Value.typeName`, `Ty.zero`, `Ty.admits`, `Value.field?`.
-/
import SeqQuery.Ty

namespace SeqQuery

/-- A value. A timestamp counts milliseconds from the epoch. -/
inductive Value where
  | null
  | bool (b : Bool)
  | int32 (n : Int32)
  | int64 (n : Int64)
  | float32 (x : Float32)
  | float64 (x : Float)
  | string (s : String)
  | timestamp (ms : Int64)
  | record (ty : RecordTy) (values : List Value)
  | list (items : List Value)
deriving Inhabited

/-- Why a value could not be made. -/
inductive ValueError where
  | coercion (source target : String)
  | recordArity (record : String) (expected actual : Nat)
  | unknownField (record field : String)
deriving DecidableEq, Repr

/-- The wording of an error. -/
def ValueError.message : ValueError → String
  | .coercion source target => "Cannot convert " ++ source ++ " to " ++ target
  | .recordArity record expected actual =>
    "Record '" ++ record ++ "' expects " ++ toString expected ++ " fields, got " ++ toString actual
  | .unknownField record field => "Unknown field '" ++ field ++ "' on record '" ++ record ++ "'"

namespace Value

/-- A record of the given type, if there is one value per field. -/
def ofRecord? (ty : RecordTy) (values : List Value) : Except ValueError Value :=
  if values.length = ty.fields.length then .ok (.record ty values)
  else .error (.recordArity ty.name ty.fields.length values.length)

/-! ### Equality -/

mutual

/-- Whether two values are equal; floating-point numbers compare as numbers. -/
def beq : Value → Value → Bool
  | .null, .null => true
  | .bool a, .bool b => a == b
  | .int32 a, .int32 b => a == b
  | .int64 a, .int64 b => a == b
  | .float32 a, .float32 b => a == b
  | .float64 a, .float64 b => a == b
  | .string a, .string b => a == b
  | .timestamp a, .timestamp b => a == b
  | .record s as, .record t bs => s == t && beqAll as bs
  | .list as, .list bs => beqAll as bs
  | _, _ => false

/-- Whether two lists of values are equal item by item. -/
def beqAll : List Value → List Value → Bool
  | [], [] => true
  | a :: as, b :: bs => beq a b && beqAll as bs
  | _, _ => false

end

instance : BEq Value := ⟨beq⟩

/-! ### Views -/

/-- The kind of a value in words; records and lists are not told apart further. -/
def typeName : Value → String
  | .null => "Null"
  | .bool _ => "Bool"
  | .int32 _ => "Int32"
  | .int64 _ => "Int64"
  | .float32 _ => "Float32"
  | .float64 _ => "Float64"
  | .string _ => "String"
  | .timestamp _ => "Timestamp"
  | .record _ _ => "Record"
  | .list _ => "List"

/-- Whether a value is null. -/
def isNull : Value → Bool
  | .null => true
  | _ => false

/-- Whether a value is an integer or a floating-point number. -/
def isNumeric : Value → Bool
  | .int32 _ | .int64 _ | .float32 _ | .float64 _ => true
  | _ => false

/-- The Boolean that a value is. -/
def bool? : Value → Option Bool
  | .bool b => some b
  | _ => none

/-- The 32-bit integer that a value is. -/
def int32? : Value → Option Int32
  | .int32 n => some n
  | _ => none

/-- The integer that a value is, of either width. -/
def int64? : Value → Option Int64
  | .int32 n => some n.toInt64
  | .int64 n => some n
  | _ => none

/-- The number that a value is, as the nearest double. -/
def float? : Value → Option Float
  | .int32 n => some n.toFloat
  | .int64 n => some n.toFloat
  | .float32 x => some x.toFloat
  | .float64 x => some x
  | _ => none

/-- The text that a value is. -/
def string? : Value → Option String
  | .string s => some s
  | _ => none

/-- The timestamp that a value is. -/
def timestamp? : Value → Option Int64
  | .timestamp ms => some ms
  | _ => none

/-- The type of the record that a value is. -/
def recordTy? : Value → Option RecordTy
  | .record ty _ => some ty
  | _ => none

/-- The items of the list that a value is. -/
def items? : Value → Option (List Value)
  | .list items => some items
  | _ => none

/-- The value of a field of a record. -/
def field? (name : String) : Value → Option Value
  | .record ty values => (ty.fields.indexOf? name).bind (values[·]?)
  | _ => none

end Value

/-! ### Values of a type -/

namespace Ty

/-- The value that a field of a type has when nothing sets it. -/
def zero : Ty → Value
  | .bool => .bool false
  | .int32 => .int32 0
  | .int64 => .int64 0
  | .float32 => .float32 0
  | .float64 => .float64 0
  | .timestamp => .timestamp 0
  | .null | .string | .record _ _ | .list _ => .null

/-- Whether a value is an instance of a type. A record is one of its own type
whatever its fields hold; a list is one if every item is. -/
def admits : Ty → Value → Bool
  | ty, .null => ty.isNullable
  | .bool, .bool _ => true
  | .int32, .int32 _ => true
  | .int64, .int64 _ => true
  | .float32, .float32 _ => true
  | .float64, .float64 _ => true
  | .string, .string _ => true
  | .timestamp, .timestamp _ => true
  | .record name fields, .record r _ => r == ⟨name, fields⟩
  | .list item, .list items => items.all (admits item)
  | _, _ => false

/-- The zero of a type is one of its values. -/
theorem admits_zero (ty : Ty) : ty.admits ty.zero := by
  cases ty <;> simp [zero, admits, isNullable]

end Ty

/-- The type of a value as far as the value shows it. An empty list has null items,
and a list with items has the type of the first. -/
def Value.ty : Value → Ty
  | .null => .null
  | .bool _ => .bool
  | .int32 _ => .int32
  | .int64 _ => .int64
  | .float32 _ => .float32
  | .float64 _ => .float64
  | .string _ => .string
  | .timestamp _ => .timestamp
  | .record r _ => r.ty
  | .list [] => .list .null
  | .list (item :: _) => .list item.ty

end SeqQuery
