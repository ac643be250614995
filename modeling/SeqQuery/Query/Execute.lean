/-
# Running queries

A query yields its rows as a list, or the answer to a terminal. An answer is held to
the type that the terminal promises, whatever the backend gives; typed shortcuts go
one step further and hand out a plain Boolean or number.

The suspendable operations give the same answers, unless they are cancelled.

Key definitions: `Query.toValues`, `Query.execute`, `Query.toValuesLater`,
`Query.executeLater`, `coerceResult`, `OfValue`, `Query.executeAs`,
`Query.executeAsLater`.
-/
import SeqQuery.Query.Backend

namespace SeqQuery

variable {β σ : Type}

/-- Holds an answer to the type that was promised. -/
def coerceResult (resultTy : Ty) (v : Value) : Except QueryError Value :=
  if resultTy.admits v then .ok v else (v.convertChecked resultTy).mapError .ofValue

/-! ### Typed answers -/

/-- The types as which an answer can be had. -/
class OfValue (α : Type) where
  ofValue : Value → Except QueryError α

/-- The error of a value that is not of the type asked for. -/
def Value.notA (v : Value) (target : String) : QueryError :=
  .coercionFailure v.typeName target

instance : OfValue Value where
  ofValue v := .ok v

instance : OfValue Bool where
  ofValue
    | .bool b => .ok b
    | v => .error (v.notA "Bool")

instance : OfValue Int32 where
  ofValue
    | .int32 n => .ok n
    | .int64 n =>
      if n.toInt32.toInt64 = n then .ok n.toInt32 else .error (Value.notA (.int64 n) "Int32")
    | v => .error (v.notA "Int32")

instance : OfValue Int64 where
  ofValue
    | .int32 n => .ok n.toInt64
    | .int64 n => .ok n
    | .timestamp ms => .ok ms
    | v => .error (v.notA "Int64")

instance : OfValue Float where
  ofValue v :=
    match v.float? with
    | some x => .ok x
    | none => .error (v.notA "Float64")

instance : OfValue Float32 where
  ofValue
    | .float32 x => .ok x
    | .float64 x => .ok (nearestSingle x)
    | .int32 n => .ok n.toFloat32
    | v => .error (v.notA "Float32")

instance : OfValue String where
  ofValue
    | .string s => .ok s
    | v => .error (v.notA "String")

/-- Null is no answer, and anything else has to be one. -/
instance {α : Type} [OfValue α] : OfValue (Option α) where
  ofValue
    | .null => .ok none
    | v => (OfValue.ofValue v).map some

/-! ### Rows and answers -/

namespace Query

/-- The rows of a query. -/
def toValues (b : Backend β σ) (q : Query β σ) : Run β σ (List Value) :=
  if q.isEmpty then .ofOutcome (.ok []) else b.read q (Rows.toValues [])

/-- The rows of a query, waited for. -/
def toValuesLater (b : Backend β σ) (token : Token) (q : Query β σ) : Run β σ (List Value) :=
  if q.isEmpty then .ofOutcome (.ok []) else b.read q (Rows.awaitValues token)

/-- The answer to a terminal. -/
def execute (b : Backend β σ) (q : Query β σ) (terminal : Terminal) : Run β σ Value :=
  match q.resolve terminal with
  | .error e => .ofOutcome (.error e)
  | .ok (.done v) => .ofOutcome (.ok v)
  | .ok (.ask request) =>
    (b.aggregate request.query request.aggregate).andThen (coerceResult request.resultTy)

/-- The answer to a terminal, waited for. -/
def executeLater (b : Backend β σ) (token : Token) (q : Query β σ) (terminal : Terminal) :
    Run β σ Value :=
  match q.resolve terminal with
  | .error e => .ofOutcome (.error e)
  | .ok (.done v) => .ofOutcome (.ok v)
  | .ok (.ask request) =>
    match token with
    | .cancelled => .ofOutcome (.error .cancelled)
    | .live =>
      (b.aggregateLater token request.query request.aggregate).andThen
        (coerceResult request.resultTy)

/-- The answer to a terminal as a value of a plain type. -/
def executeAs (α : Type) [OfValue α] (b : Backend β σ) (q : Query β σ) (terminal : Terminal) :
    Run β σ α :=
  (q.execute b terminal).andThen OfValue.ofValue

/-- The answer to a terminal as a value of a plain type, waited for. -/
def executeAsLater (α : Type) [OfValue α] (b : Backend β σ) (token : Token) (q : Query β σ)
    (terminal : Terminal) : Run β σ α :=
  (q.executeLater b token terminal).andThen OfValue.ofValue

/-! ### Shortcuts -/

/-- The number of rows. -/
def count (b : Backend β σ) (q : Query β σ) : Run β σ Int32 :=
  q.executeAs Int32 b (.count none)

/-- The number of rows, in 64 bits. -/
def longCount (b : Backend β σ) (q : Query β σ) : Run β σ Int64 :=
  q.executeAs Int64 b (.longCount none)

/-- Whether there are rows. -/
def any (b : Backend β σ) (q : Query β σ) : Run β σ Bool :=
  q.executeAs Bool b (.any none)

/-- Whether all rows pass a predicate. -/
def all (b : Backend β σ) (q : Query β σ) (p : Lambda) : Run β σ Bool :=
  q.executeAs Bool b (.all p)

/-- Whether a value is among the rows. -/
def contains (b : Backend β σ) (q : Query β σ) (v : Value) : Run β σ Bool :=
  q.executeAs Bool b (.contains v)

/-- The number of rows, waited for. -/
def countLater (b : Backend β σ) (token : Token) (q : Query β σ) : Run β σ Int32 :=
  q.executeAsLater Int32 b token (.count none)

/-- The number of rows, in 64 bits, waited for. -/
def longCountLater (b : Backend β σ) (token : Token) (q : Query β σ) : Run β σ Int64 :=
  q.executeAsLater Int64 b token (.longCount none)

/-- Whether there are rows, waited for. -/
def anyLater (b : Backend β σ) (token : Token) (q : Query β σ) : Run β σ Bool :=
  q.executeAsLater Bool b token (.any none)

/-- Whether all rows pass a predicate, waited for. -/
def allLater (b : Backend β σ) (token : Token) (q : Query β σ) (p : Lambda) : Run β σ Bool :=
  q.executeAsLater Bool b token (.all p)

/-- Whether a value is among the rows, waited for. -/
def containsLater (b : Backend β σ) (token : Token) (q : Query β σ) (v : Value) : Run β σ Bool :=
  q.executeAsLater Bool b token (.contains v)

end Query
end SeqQuery
