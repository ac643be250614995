/-
# Assertions on outcomes

A step of a scenario ends in rows, in one value, or in an error. An assertion says
what is expected of it. Once an error is expected nothing else is looked at; else the
step must have succeeded, a check of the caller's comes first, and then the
expectations for one value or for rows. Floating-point numbers are compared with some
slack.

Key definitions: `Outcome`, `Assertion`, `ErrorKind`, `Value.near`, `Failure`,
`Assertion.verify`.
-/
import SeqQuery.Expr.Apply
import SeqQuery.Query.Error
import SeqQuery.Value.Text

namespace SeqQuery

/-- What a step gives. -/
inductive Outcome where
  | rows (values : List Value)
  | scalar (value : Value)

/-- The text of an outcome. -/
def Outcome.text : Outcome → String
  | .rows values => toString values.length ++ " rows"
  | .scalar value => value.text

/-- The kinds of errors that an assertion tells apart. -/
inductive ErrorKind where
  | invalidComposition
  | notSupported
  | emptyResult
  | multipleResults
  | coercionFailure
  | argumentError
  | cancelled
  | other
deriving DecidableEq, Repr

/-- The name of a kind. -/
def ErrorKind.name : ErrorKind → String
  | .invalidComposition => "InvalidComposition"
  | .notSupported => "NotSupported"
  | .emptyResult => "EmptyResult"
  | .multipleResults => "MultipleResults"
  | .coercionFailure => "CoercionFailure"
  | .argumentError => "ArgumentError"
  | .cancelled => "Cancelled"
  | .other => "Other"

/-- The kind with a name. -/
def ErrorKind.ofName? (name : String) : Option ErrorKind :=
  [.invalidComposition, .notSupported, .emptyResult, .multipleResults, .coercionFailure,
    .argumentError, .cancelled, .other].find? (·.name == name)

/-- Every kind is found by its name. -/
theorem ErrorKind.ofName?_name (k : ErrorKind) : ofName? k.name = some k := by
  cases k <;> decide

/-- The kind of an error. -/
def QueryError.kind : QueryError → ErrorKind
  | .invalidComposition _ => .invalidComposition
  | .notSupported _ => .notSupported
  | .emptyResult => .emptyResult
  | .multipleResults => .multipleResults
  | .coercionFailure _ _ => .coercionFailure
  | .argument _ => .argumentError
  | .cancelled => .cancelled
  | .mergeFailure _ | .backend _ | .evaluation _ => .other

/-- What is expected of an outcome. -/
structure Assertion where
  value : Option Value
  rows : Option Nat
  empty : Option Bool
  returns : Option (List Value)
  contains : List Value
  first : Option Value
  last : Option Value
  error : Option String
  errorKind : Option ErrorKind
  custom : Option (Outcome → Bool)

/-- Nothing is expected. -/
def Assertion.none : Assertion :=
  ⟨.none, .none, .none, .none, [], .none, .none, .none, .none, .none⟩

/-- Whether two values are equal up to the slack allowed to floating-point numbers.
Doubles may differ by less than a billionth, and singles by less than a
hundred-thousandth, also from a double. -/
def Value.near : Value → Value → Bool
  | .float64 x, .float64 y => (x - y).abs < 1e-9
  | .float32 x, .float32 y => (x - y).abs < 1e-5
  | .float32 x, .float64 y | .float64 y, .float32 x => (x.toFloat - y).abs < 1e-5
  | a, b => a == b

/-- The texts of values in a row. -/
def Value.listText (values : List Value) : String :=
  String.intercalate ", " (values.map Value.text)

/-- Why an outcome is not as expected. -/
inductive Failure where
  | noError (outcome : Outcome)
  | otherKind (expected : ErrorKind) (error : QueryError)
  | otherError (expected : String) (error : QueryError)
  | stepFailed (error : QueryError)
  | customFailed (outcome : Outcome)
  | otherValue (expected actual : Value)
  | notRows (actual : Value)
  | notValue (expected : Value) (rows : List Value)
  | notEmpty (rows : List Value)
  | isEmpty
  | otherCount (expected : Nat) (rows : List Value)
  | otherRows (expected rows : List Value)
  | absent (expected : Value) (rows : List Value)
  | otherFirst (expected : Value) (actual : Option Value)
  | otherLast (expected : Value) (actual : Option Value)

/-- The wording of a failure. -/
def Failure.message : Failure → String
  | .noError outcome => "expected an error, but step returned " ++ outcome.text
  | .otherKind expected error => "expected " ++ expected.name ++ " error, got: " ++ error.message
  | .otherError expected error =>
    "expected error containing '" ++ expected ++ "', got: " ++ error.message
  | .stepFailed error => "step failed: " ++ error.message
  | .customFailed outcome => "custom assertion failed for " ++ outcome.text
  | .otherValue expected actual => "expected value " ++ expected.text ++ ", got " ++ actual.text
  | .notRows actual => "expected rows, got scalar " ++ actual.text
  | .notValue expected rows =>
    "expected value " ++ expected.text ++ ", got " ++ toString rows.length ++ " rows"
  | .notEmpty rows => "expected no rows, got " ++ toString rows.length
  | .isEmpty => "expected rows, got none"
  | .otherCount expected rows =>
    "expected " ++ toString expected ++ " rows, got " ++ toString rows.length
  | .otherRows expected rows =>
    "expected rows [" ++ Value.listText expected ++ "], got [" ++ Value.listText rows ++ "]"
  | .absent expected rows =>
    "expected a row " ++ expected.text ++ ", got [" ++ Value.listText rows ++ "]"
  | .otherFirst expected actual =>
    "expected first row " ++ expected.text ++ ", got " ++ (actual.map Value.text).getD "nothing"
  | .otherLast expected actual =>
    "expected last row " ++ expected.text ++ ", got " ++ (actual.map Value.text).getD "nothing"

namespace Assertion

/-- Fails unless a condition holds of an expectation, if there is one. -/
def expect {α : Type} (expected : Option α) (holds : α → Bool) (failure : α → Failure) :
    Except Failure Unit :=
  match expected with
  | .none => .ok ()
  | some e => if holds e then .ok () else .error (failure e)

/-- Whether two lists are equal value by value, up to slack. -/
def nearAll (expected actual : List Value) : Bool :=
  expected.length == actual.length && (actual.zip expected).all fun (a, e) => a.near e

/-- Verifies the expectations of an error. -/
def verifyError (a : Assertion) (result : Except QueryError Outcome) : Except Failure Unit :=
  match result with
  | .ok outcome => .error (.noError outcome)
  | .error e => do
    expect a.errorKind (e.kind == ·) (.otherKind · e)
    expect a.error (fun part => occursIn part.toList e.message.toList) (.otherError · e)

/-- Verifies the expectations of one value. -/
def verifyScalar (a : Assertion) (v : Value) : Except Failure Unit := do
  expect a.value v.near (.otherValue · v)
  if a.rows.isSome || a.returns.isSome || a.empty.isSome then .error (.notRows v) else .ok ()

/-- Verifies that values are among the rows. -/
def verifyContains (rows : List Value) : List Value → Except Failure Unit
  | [] => .ok ()
  | e :: rest =>
    if rows.any (·.near e) then verifyContains rows rest else .error (.absent e rows)

/-- Verifies the expectations of rows. -/
def verifyRows (a : Assertion) (rows : List Value) : Except Failure Unit := do
  expect a.value (fun _ => false) (.notValue · rows)
  expect a.empty (rows.isEmpty == ·) fun e => if e then .notEmpty rows else .isEmpty
  expect a.rows (rows.length == ·) (.otherCount · rows)
  expect a.returns (nearAll · rows) (.otherRows · rows)
  verifyContains rows a.contains
  expect a.first (fun e => rows.head?.any (·.near e)) (.otherFirst · rows.head?)
  expect a.last (fun e => rows.getLast?.any (·.near e)) (.otherLast · rows.getLast?)

/-- Verifies the outcome of a step. -/
def verify (a : Assertion) (result : Except QueryError Outcome) : Except Failure Unit :=
  if a.error.isSome || a.errorKind.isSome then a.verifyError result
  else
    match result with
    | .error e => .error (.stepFailed e)
    | .ok outcome => do
      expect a.custom (· outcome) fun _ => .customFailed outcome
      match outcome with
      | .scalar v => a.verifyScalar v
      | .rows rows => a.verifyRows rows

end Assertion
end SeqQuery
