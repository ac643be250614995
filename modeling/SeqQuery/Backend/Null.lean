/-
# The backend without rows

A backend that cannot run anything. It serves to compose and write queries where there
is no source of rows.

Key definitions: `Null`, `Null.producer`.
-/
import SeqQuery.Query.Backend

namespace SeqQuery

variable {σ : Type}

/-- The handle of the backend without rows. -/
inductive Null where
  | handle
deriving DecidableEq

/-- A backend that refuses to iterate. -/
def Null.producer : Producer Null σ where
  name _ := "null"
  allowsFullScans _ := false
  iterate _ := .error (.notSupported .noRows)
  render? _ _ := none

end SeqQuery
