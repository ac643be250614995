/-
# The text of an expression

Binary operations and choices stand in parentheses; a lambda is written as its
parameter's name, an arrow and its body.

Key definitions: `Expr.text`, `Lambda.text`.
-/
import SeqQuery.Expr
import SeqQuery.Value.Text

namespace SeqQuery

/-- What stands before the operand of an operator. -/
def UnaryOp.mark : UnaryOp → String
  | .not => "!"
  | .negate | .negateChecked => "-"
  | .plus => "+"
  | .convert ty => "(" ++ ty.name ++ ")"

/-- The text of a call with the texts of all its operands. -/
def Method.callText (method : Method) (operands : List String) : String :=
  let call (args : List String) := method.name ++ "(" ++ String.intercalate ", " args ++ ")"
  if method.isStatic then call operands
  else
    match operands with
    | [] => call []
    | object :: args => object ++ "." ++ call args

/-- The text of the fields set by position. -/
def argTexts : List String → List String → List String
  | name :: names, arg :: args => (name ++ " = " ++ arg) :: argTexts names args
  | _, _ => []

namespace Expr

mutual

/-- The text of an expression. -/
def text : Expr → String
  | .const v _ => v.text
  | .param p => p.name
  | .member e name _ => text e ++ "." ++ name
  | .unary op e _ => op.mark ++ text e
  | .binary op l r _ => "(" ++ text l ++ " " ++ op.symbol ++ " " ++ text r ++ ")"
  | .cond t a b _ => "(" ++ text t ++ " ? " ++ text a ++ " : " ++ text b ++ ")"
  | .call method es _ => method.callText (texts es)
  | .construct record es bs =>
    "new " ++ record.name ++ "("
      ++ String.intercalate ", " (argTexts record.fields.names (texts es) ++ bindingTexts bs) ++ ")"

/-- The texts of a list of expressions. -/
def texts : List Expr → List String
  | [] => []
  | e :: es => text e :: texts es

/-- The texts of fields set by name. -/
def bindingTexts : List (String × Expr) → List String
  | [] => []
  | (name, e) :: bs => (name ++ " = " ++ text e) :: bindingTexts bs

end

end Expr

/-- The text of a lambda. -/
def Lambda.text (f : Lambda) : String :=
  f.param.name ++ " => " ++ f.body.text

end SeqQuery
