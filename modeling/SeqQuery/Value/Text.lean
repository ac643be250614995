/-
# The text of a value

Texts stand in double quotes as they are, with nothing escaped, and a floating-point
number is written with the fewest digits that read back.

Key definition: `Value.text`.
-/
import SeqQuery.Value
import SeqQuery.Decimal.Shortest

namespace SeqQuery.Value

mutual

/-- The text of a value. -/
def text : Value → String
  | .null => "null"
  | .bool b => if b then "true" else "false"
  | .int32 n => toString n.toInt
  | .int64 n => toString n.toInt
  | .float32 x => (Binary.ofFloat32 x).text
  | .float64 x => (Binary.ofFloat x).text
  | .string s => "\"" ++ s ++ "\""
  | .timestamp ms => "ts:" ++ toString ms.toInt
  | .record ty values =>
    ty.name ++ " \x7b " ++ String.intercalate ", " (fieldTexts ty.fields.names values) ++ " \x7d"
  | .list items => "[" ++ String.intercalate ", " (texts items) ++ "]"

/-- The texts of the values of a list. -/
def texts : List Value → List String
  | [] => []
  | v :: rest => text v :: texts rest

/-- The texts of values with the names of their fields. -/
def fieldTexts : List String → List Value → List String
  | _, [] => []
  | [], _ => []
  | name :: names, v :: rest => (name ++ " = " ++ text v) :: fieldTexts names rest

end

end SeqQuery.Value
