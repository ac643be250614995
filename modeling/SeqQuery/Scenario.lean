/-
# Scenarios

A scenario is a query and steps that run it, each with an assertion on its outcome. It
passes when every assertion holds and ends at the first that does not.

Key definitions: `Scenario`, `ScenarioError`, `Scenario.run`.
-/
import SeqQuery.Query
import SeqQuery.Scenario.Assertion

namespace SeqQuery

/-- A step of a scenario. -/
structure ScenarioStep (β σ : Type) where
  name : String
  run : Query β σ → Except QueryError Outcome
  assertion : Assertion

/-- A scenario. -/
structure Scenario (β σ : Type) where
  name : String
  source : Option (Query β σ)
  steps : List (ScenarioStep β σ)

/-- Why a scenario does not pass. -/
inductive ScenarioError where
  | missingSource (scenario : String)
  | assertionFailed (step : String) (failure : Failure)

/-- The wording of an error. -/
def ScenarioError.message : ScenarioError → String
  | .missingSource scenario => "source not specified for scenario '" ++ scenario ++ "'"
  | .assertionFailed step failure =>
    "assertion failed for step '" ++ step ++ "': " ++ failure.message

variable {β σ : Type}

/-- Verifies the result of a step. -/
def ScenarioStep.verify (step : ScenarioStep β σ) (result : Except QueryError Outcome) :
    Except ScenarioError Unit :=
  (step.assertion.verify result).mapError (.assertionFailed step.name)

/-- Runs steps on a query up to the first that fails. -/
def runSteps (q : Query β σ) : List (ScenarioStep β σ) → Except ScenarioError Unit
  | [] => .ok ()
  | step :: rest => do
    step.verify (step.run q)
    runSteps q rest

/-- Runs a scenario. -/
def Scenario.run (s : Scenario β σ) : Except ScenarioError Unit :=
  match s.source with
  | none => .error (.missingSource s.name)
  | some q => runSteps q s.steps

end SeqQuery
