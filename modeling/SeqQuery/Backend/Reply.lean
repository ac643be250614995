/-
# Replies of a store

A store answers with nothing, an integer, a text or an array of replies. A reply is
read as a value of a type: numbers from integers or from texts without the blanks
around them, a record from an array with one item per field. Fields that the array is
too short for get their zero, and what it has too much is left out.

Key definitions: `Reply`, `Reply.readInt`, `Reply.readFloat`, `Reply.readString`,
`Reply.copyArray`, `Reply.readAs`, `Memory.ofReplies`.
-/
import SeqQuery.Backend.Memory
import SeqQuery.Decimal.Read
import SeqQuery.Text.Blank

namespace SeqQuery

/-- A reply. -/
inductive Reply where
  | nil
  | integer (n : Int64)
  | bulk (text : String)
  | array (items : List Reply)
deriving Inhabited

namespace Reply

/-- The kind of a reply in words. -/
def kind : Reply → String
  | .nil => "nil"
  | .integer _ => "integer"
  | .bulk _ => "bulk"
  | .array _ => "array"

/-- Whether a reply is nothing. -/
def isNil : Reply → Bool
  | .nil => true
  | _ => false

/-- Whether a reply is an array. -/
def isArray : Reply → Bool
  | .array _ => true
  | _ => false

/-- The items of an array. -/
def items : Reply → List Reply
  | .array items => items
  | _ => []

/-- The error of a reply that cannot be read as a type. -/
def unreadable (r : Reply) (target : String) : QueryError :=
  .coercionFailure r.kind target

/-! ### Scalars -/

/-- Reads an integer. -/
def readInt (r : Reply) : Except QueryError Int64 :=
  match r with
  | .integer n => .ok n
  | .bulk text =>
    match readInt? (Text.trim text.toList) with
    | some n => if fits 64 n then .ok (Int64.ofInt n) else .error (r.unreadable "Int64")
    | none => .error (r.unreadable "Int64")
  | r => .error (r.unreadable "Int64")

/-- Reads a floating-point number. -/
def readFloat (r : Reply) : Except QueryError Float :=
  match r with
  | .integer n => .ok n.toFloat
  | .bulk text =>
    match readFloat? (Text.trim text.toList) with
    | some x => .ok x
    | none => .error (r.unreadable "Float64")
  | r => .error (r.unreadable "Float64")

/-- Reads a text. -/
def readString (r : Reply) : Except QueryError String :=
  match r with
  | .bulk text => .ok text
  | .integer n => .ok (toString n.toInt)
  | r => .error (r.unreadable "String")

/-- Reads an integer of 32 bits. -/
def readInt32 (r : Reply) : Except QueryError Int32 := do
  let n ← r.readInt
  if n.toInt32.toInt64 = n then .ok n.toInt32 else .error (.coercionFailure "Int64" "Int32")

/-! ### Arrays and values of any type -/

/-- Reads items up to the first that cannot be read. -/
def readItems (read : Reply → Except QueryError Value) :
    List Reply → List Value × Except QueryError Unit
  | [] => ([], .ok ())
  | r :: rest =>
    match read r with
    | .error e => ([], .error e)
    | .ok v =>
      let (values, outcome) := readItems read rest
      (v :: values, outcome)

/-- Appends the items of an array to a list and gives their number. What was read
before a failure stays in the list. -/
def copyArray (read : Reply → Except QueryError Value) (r : Reply) (out : List Value) :
    List Value × Except QueryError Nat :=
  match r with
  | .array items =>
    let (values, outcome) := readItems read items
    (out ++ values, outcome.map fun _ => items.length)
  | _ => (out, .error (.coercionFailure "scalar" "array"))

mutual

/-- Reads a value of a type. -/
def readAs : Ty → Reply → Except QueryError Value
  | ty, .nil => if ty.isNullable then .ok .null else .error (.coercionFailure "Null" ty.name)
  | .null, _ => .ok .null
  | .bool, r => r.readInt.map fun n => .bool (n != 0)
  | .int32, r => r.readInt32.map .int32
  | .int64, r => r.readInt.map .int64
  | .float32, r => r.readFloat.map fun x => .float32 (nearestSingle x)
  | .float64, r => r.readFloat.map .float64
  | .string, r => r.readString.map .string
  | .timestamp, r => r.readInt.map .timestamp
  | .list item, r =>
    let (values, outcome) := copyArray (readAs item) r []
    outcome.map fun _ => .list values
  | .record name fields, .array items => do
    let values ← readFields fields items
    (Value.ofRecord? ⟨name, fields⟩ values).mapError .ofValue
  | .record name _, _ => .error (.coercionFailure "scalar" name)

/-- Reads the values of fields from the items of an array. -/
def readFields : Fields → List Reply → Except QueryError (List Value)
  | .nil, _ => .ok []
  | .cons _ ty rest, [] => do
    let values ← readFields rest []
    .ok (ty.zero :: values)
  | .cons _ ty rest, r :: rs => do
    let v ← readAs ty r
    let values ← readFields rest rs
    .ok (v :: values)

end

end Reply

/-- Rows in memory read from replies. -/
def Memory.ofReplies (origin : Ty) (replies : List Reply) : Except QueryError Memory :=
  (replies.mapM (Reply.readAs origin)).map fun rows => ⟨"memory", origin, rows, false, 0⟩

end SeqQuery
