/-
# Types of values

A type says what values an expression may have and what a query yields. Next to
the scalars there are two composite types: a record, which is a named list of
fields in declaration order, and a list of one item type. Two types are equal
when they have the same shape, names included.

A field name may occur twice in a record; a look-up by name always means the
first occurrence.

Key definitions: `Ty`, `Fields`, `RecordTy`, `Ty.name`, `Ty.isNullable`,
`Fields.indexOf?`, `Fields.find?`.
-/
namespace SeqQuery

mutual

/-- The type of a value. -/
inductive Ty where
  | null
  | bool
  | int32
  | int64
  | float32
  | float64
  | string
  | timestamp
  | record (name : String) (fields : Fields)
  | list (item : Ty)

/-- The fields of a record type, in declaration order. -/
inductive Fields where
  | nil
  | cons (name : String) (ty : Ty) (rest : Fields)

end

deriving instance DecidableEq, Inhabited for Ty, Fields

namespace Fields

/-- The fields as a list of names and types. -/
def toList : Fields → List (String × Ty)
  | .nil => []
  | .cons name ty rest => (name, ty) :: rest.toList

/-- The fields with the names and types of a list. -/
def ofList : List (String × Ty) → Fields
  | [] => .nil
  | (name, ty) :: rest => .cons name ty (ofList rest)

/-- The number of fields. -/
def length : Fields → Nat
  | .nil => 0
  | .cons _ _ rest => rest.length + 1

/-- The field names, in declaration order. -/
def names : Fields → List String
  | .nil => []
  | .cons name _ rest => name :: rest.names

/-- The field types, in declaration order. -/
def types : Fields → List Ty
  | .nil => []
  | .cons _ ty rest => ty :: rest.types

/-- The position of the first field with a name. -/
def indexOf? (field : String) : Fields → Option Nat
  | .nil => none
  | .cons name _ rest => if name = field then some 0 else (rest.indexOf? field).map (· + 1)

/-- The type of the first field with a name. -/
def find? (field : String) : Fields → Option Ty
  | .nil => none
  | .cons name ty rest => if name = field then some ty else rest.find? field

@[simp] theorem toList_ofList : ∀ fs : List (String × Ty), (ofList fs).toList = fs
  | [] => rfl
  | (_, _) :: rest => by simp [ofList, toList, toList_ofList rest]

@[simp] theorem length_types : ∀ fs : Fields, fs.types.length = fs.length
  | .nil => rfl
  | .cons _ _ rest => by simp [types, length, length_types rest]

@[simp] theorem length_names : ∀ fs : Fields, fs.names.length = fs.length
  | .nil => rfl
  | .cons _ _ rest => by simp [names, length, length_names rest]

/-- A field is found by name exactly at its first position. -/
theorem find?_eq_bind_indexOf? (field : String) :
    ∀ fs : Fields, fs.find? field = (fs.indexOf? field).bind (fs.types[·]?)
  | .nil => rfl
  | .cons name ty rest => by
    by_cases h : name = field
    · simp [find?, indexOf?, types, h]
    · rw [find?, indexOf?, if_neg h, if_neg h, find?_eq_bind_indexOf? field rest]
      cases rest.indexOf? field <;> rfl

end Fields

/-- A record type: its name and its fields. -/
structure RecordTy where
  name : String
  fields : Fields
deriving DecidableEq, Inhabited

/-- The type of the records of a record type. -/
def RecordTy.ty (r : RecordTy) : Ty :=
  .record r.name r.fields

namespace Ty

/-- The record type behind a type, if it is one. -/
def record? : Ty → Option RecordTy
  | .record name fields => some ⟨name, fields⟩
  | _ => none

/-- The integer types. -/
def isInteger : Ty → Bool
  | .int32 | .int64 => true
  | _ => false

/-- The integer and floating-point types. -/
def isNumeric : Ty → Bool
  | .int32 | .int64 | .float32 | .float64 => true
  | _ => false

/-- The types that have the null value. -/
def isNullable : Ty → Bool
  | .null | .string | .record _ _ | .list _ => true
  | _ => false

/-- The types whose values relational operators compare. -/
def isComparable : Ty → Bool
  | .string | .timestamp => true
  | ty => ty.isNumeric

/-- The written form of a type. A record type is written as its name. -/
def name : Ty → String
  | .null => "Null"
  | .bool => "Bool"
  | .int32 => "Int32"
  | .int64 => "Int64"
  | .float32 => "Float32"
  | .float64 => "Float64"
  | .string => "String"
  | .timestamp => "Timestamp"
  | .record name _ => name
  | .list item => "List<" ++ item.name ++ ">"

/-- The scalar type with a name. -/
def ofName? (name : String) : Option Ty :=
  [.null, .bool, .int32, .int64, .float32, .float64, .string, .timestamp].find? (·.name == name)

/-- A type has a record type behind it exactly when it is the type of its records. -/
theorem record?_eq_some {ty : Ty} {r : RecordTy} : ty.record? = some r ↔ ty = r.ty := by
  cases ty <;> simp [record?, RecordTy.ty]
  case record name fields =>
    cases r
    simp

end Ty
end SeqQuery
