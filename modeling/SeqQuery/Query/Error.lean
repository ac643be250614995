/-
# What can be wrong with a query

A query can be refused while it is composed, because an operation does not fit what
came before it, or fail while it runs.

Key definitions: `Misuse`, `Unsupported`, `ArgumentFault`, `QueryError`,
`QueryError.message`, `QueryError.ofValue`, `QueryError.ofExpr`.
-/
import SeqQuery.Expr.Error
import SeqQuery.Query.Aggregate

namespace SeqQuery

/-- Why operations cannot be combined. -/
inductive Misuse where
  | filterAfterRange
  | orderAfterRange
  | reverseAfterRange
  | reverseUnordered
  | fromEndUnordered
  | stated (reason : String)
deriving DecidableEq

/-- The wording of a misuse. -/
def Misuse.message : Misuse → String
  | .filterAfterRange =>
    "Filters ('Where') cannot be added after row limits ('Skip'/'Take') have been applied"
  | .orderAfterRange =>
    "Ordering cannot be applied after row limits ('Skip'/'Take') have been applied"
  | .reverseAfterRange =>
    "Reverse cannot be applied after row limits ('Skip'/'Take') have been applied"
  | .reverseUnordered => "Reverse cannot be applied unless an explicit order has been applied"
  | .fromEndUnordered => "Indexing from the end requires an explicit order"
  | .stated reason => reason

/-- What is not supported. -/
inductive Unsupported where
  | selectAfterRange
  | selectAfterDistinct
  | distinctUnprojected
  | distinctAfterRange
  | noRows
  | fullScan (aggregate : Aggregate)
  | notNumeric (aggregate : Aggregate) (element : Ty)
  | stated (operation reason : String)
deriving DecidableEq

/-- The operation that is not supported. -/
def Unsupported.operation : Unsupported → String
  | .selectAfterRange | .selectAfterDistinct => "Select"
  | .distinctUnprojected | .distinctAfterRange => "Distinct"
  | .noRows => "Iterate"
  | .fullScan aggregate | .notNumeric aggregate _ => aggregate.name
  | .stated operation _ => operation

/-- Why the operation is not supported. -/
def Unsupported.reason : Unsupported → String
  | .selectAfterRange => "Projections cannot be constructed from queries with skip/take applied"
  | .selectAfterDistinct => "Additional projections cannot be added after distinct"
  | .distinctUnprojected => "Distinct can only be applied to a projection ('Select')"
  | .distinctAfterRange => "Distinct cannot be applied after Skip/Take operations"
  | .noRows => "the null backend has no rows to produce"
  | .fullScan _ =>
    "this aggregate is not supported for this query by this backend; "
      ++ "materializing the rows first (to_list) may work, but can involve "
      ++ "fetching large quantities of data"
  | .notNumeric _ element => element.name ++ " is not a numeric type"
  | .stated _ reason => reason

/-- What is wrong with an argument. -/
inductive ArgumentFault where
  | negative (name : String) (n : Int64)
  | parameterTy (name : String) (expected found : Ty)
  | notPredicate (found : Ty)
  | notElement (typeName : String) (element : Ty)
  | stated (name reason : String)
deriving DecidableEq

/-- The argument that is wrong. -/
def ArgumentFault.name : ArgumentFault → String
  | .negative name _ | .parameterTy name _ _ | .stated name _ => name
  | .notPredicate _ => "predicate"
  | .notElement _ _ => "value"

/-- Why the argument is wrong. -/
def ArgumentFault.reason : ArgumentFault → String
  | .negative _ n => "must not be negative, was " ++ toString n.toInt
  | .parameterTy _ expected found =>
    "expected a parameter of type " ++ expected.name ++ ", found " ++ found.name
  | .notPredicate found => "expected a Bool result, found " ++ found.name
  | .notElement typeName element => typeName ++ " is not a " ++ element.name
  | .stated _ reason => reason

/-- Why a query was refused or failed. An `evaluation` error comes from an expression
that was evaluated for a row and is reported as the backend's. -/
inductive QueryError where
  | invalidComposition (misuse : Misuse)
  | notSupported (what : Unsupported)
  | emptyResult
  | multipleResults
  | mergeFailure (error : ExprError)
  | coercionFailure (source target : String)
  | argument (fault : ArgumentFault)
  | backend (reason : String)
  | evaluation (error : ExprError)
  | cancelled
deriving DecidableEq

namespace QueryError

/-- The wording of an error. -/
def message : QueryError → String
  | .invalidComposition misuse => misuse.message
  | .notSupported what => what.operation ++ " is not supported: " ++ what.reason
  | .emptyResult => "Sequence contains no elements"
  | .multipleResults => "Sequence contains more than one element"
  | .mergeFailure error => "Cannot merge expressions: " ++ error.message
  | .coercionFailure source target => "Cannot convert " ++ source ++ " to " ++ target
  | .argument fault => "Invalid argument '" ++ fault.name ++ "': " ++ fault.reason
  | .backend reason => "Backend error: " ++ reason
  | .evaluation error => "Backend error: " ++ error.message
  | .cancelled => "Operation was cancelled"

/-- The error of a query in which an expression failed. -/
def ofExpr : ExprError → QueryError
  | .value (.coercion source target) => .coercionFailure source target
  | error => .evaluation error

/-- The error of a query in which a value could not be made. -/
def ofValue (error : ValueError) : QueryError :=
  ofExpr (.value error)

end QueryError
end SeqQuery
