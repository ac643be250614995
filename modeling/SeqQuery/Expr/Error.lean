/-
# What can be wrong with an expression

An expression can be refused when it is built, because its parts do not fit
together, or fail when it is evaluated.

Key definitions: `Fault`, `ExprError`, `ExprError.message`.
-/
import SeqQuery.Expr.Operator
import SeqQuery.Value

namespace SeqQuery

/-- Why an operation is invalid. -/
inductive Fault where
  | objectOnStatic (method : Method)
  | objectMissing (method : Method)
  | noOverload (method : Method) (arguments : List Ty)
  | tooManyArguments (record : String) (fields given : Nat)
  | setByArgument (member : String)
  | boundTwice (member : String)
  | nullRead (member : String)
  | nullCall (method : Method)
  | badArguments (method : Method) (arguments : List String)
  | badOperand (op : UnaryOp) (operand : String)
  | notOnFloats (op : Bits)
  | stated (reason : String)
deriving DecidableEq

/-- The wording of an invalid operation. -/
def Fault.message : Fault → String
  | .objectOnStatic method => method.name ++ " is static and takes no target"
  | .objectMissing method => method.name ++ " requires a target"
  | .noOverload method arguments =>
    "no overload of " ++ method.name ++ " accepts ("
      ++ String.intercalate ", " (arguments.map Ty.name) ++ ")"
  | .tooManyArguments record fields given =>
    "'" ++ record ++ "' has " ++ toString fields ++ " fields but " ++ toString given
      ++ " arguments were given"
  | .setByArgument member => "member '" ++ member ++ "' is already set by a constructor argument"
  | .boundTwice member => "member '" ++ member ++ "' is bound more than once"
  | .nullRead member => "null reference reading '" ++ member ++ "'"
  | .nullCall method => "null reference calling " ++ method.name
  | .badArguments method arguments =>
    "cannot call " ++ method.name ++ " with (" ++ String.intercalate ", " arguments ++ ")"
  | .badOperand op operand => "cannot apply " ++ op.name ++ " to " ++ operand
  | .notOnFloats op => "'" ++ op.symbol ++ "' is not a floating point operator"
  | .stated reason => reason

/-- Why an expression was refused or failed. -/
inductive ExprError where
  | unboundParameter (name : String)
  | typeMismatch (expected actual : String)
  | unknownMember (member typeName : String)
  | invalidOperation (fault : Fault)
  | overflow (operation : String)
  | divisionByZero
  | value (error : ValueError)
deriving DecidableEq

/-- The wording of an error. -/
def ExprError.message : ExprError → String
  | .unboundParameter name => "Unbound parameter '" ++ name ++ "'"
  | .typeMismatch expected actual => "type error: expected " ++ expected ++ ", got " ++ actual
  | .unknownMember member typeName =>
    "Unknown member '" ++ member ++ "' on type '" ++ typeName ++ "'"
  | .invalidOperation fault => "Invalid operation: " ++ fault.message
  | .overflow operation => "Arithmetic overflow in " ++ operation
  | .divisionByZero => "Division by zero"
  | .value error => error.message

end SeqQuery
