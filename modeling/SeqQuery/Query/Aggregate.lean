/-
# Aggregates and terminals

A terminal is what a caller asks of a query: a count, the first row, whether a value
occurs. Every terminal comes down to one of a few aggregates, which is what a backend
answers.

Key definitions: `Aggregate`, `Index`, `Terminal`.
-/
import SeqQuery.Expr

namespace SeqQuery

/-- What a backend computes from the rows of a query. -/
inductive Aggregate where
  | first
  | firstOrDefault
  | single
  | singleOrDefault
  | count
  | average
  | minimum
  | maximum
  | sum
  | any
  | notAny
deriving DecidableEq, Repr

/-- The name of an aggregate. -/
def Aggregate.name : Aggregate → String
  | .first => "First"
  | .firstOrDefault => "FirstOrDefault"
  | .single => "Single"
  | .singleOrDefault => "SingleOrDefault"
  | .count => "Count"
  | .average => "Average"
  | .minimum => "Minimum"
  | .maximum => "Maximum"
  | .sum => "Sum"
  | .any => "Any"
  | .notAny => "NotAny"

/-- All aggregates. -/
def Aggregate.all : List Aggregate :=
  [.first, .firstOrDefault, .single, .singleOrDefault, .count, .average, .minimum, .maximum,
    .sum, .any, .notAny]

/-- The aggregate with a name. -/
def Aggregate.ofName? (name : String) : Option Aggregate :=
  all.find? (·.name == name)

/-- Every aggregate is found by its name. -/
theorem Aggregate.ofName?_name (a : Aggregate) : ofName? a.name = some a := by
  cases a <;> decide

/-- A position among the rows. From the start the first row is number 0, from the end
the last row is number 1. -/
inductive Index where
  | fromStart (n : Nat)
  | fromEnd (n : Nat)
deriving DecidableEq, Repr

/-- What a caller asks of a query. A predicate restricts the rows first; a selector
projects them first. -/
inductive Terminal where
  | count (predicate : Option Lambda)
  | longCount (predicate : Option Lambda)
  | any (predicate : Option Lambda)
  | all (predicate : Lambda)
  | first (predicate : Option Lambda)
  | firstOrDefault (predicate : Option Lambda)
  | single (predicate : Option Lambda)
  | singleOrDefault (predicate : Option Lambda)
  | last (predicate : Option Lambda)
  | lastOrDefault (predicate : Option Lambda)
  | average (selector : Option Lambda)
  | sum (selector : Option Lambda)
  | min (selector : Option Lambda)
  | max (selector : Option Lambda)
  | elementAt (index : Index)
  | elementAtOrDefault (index : Index)
  | contains (value : Value)

end SeqQuery
