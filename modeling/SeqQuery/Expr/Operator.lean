/-
# Operators and methods

The operators of the expression language, grouped by the rule that types them, and
the methods that an expression may call. Every operator has a symbol; a checked
operator shares it with the unchecked one.

Key definitions: `UnaryOp`, `BinaryOp`, `Method`, `BinaryOp.isAssociative`,
`Method.isStatic`, `Method.isPure`.
-/
import SeqQuery.Ty

namespace SeqQuery

/-- Operators on one operand. `not` is logical on Booleans and complements the bits
of an integer; `negate` wraps where `negateChecked` fails. -/
inductive UnaryOp where
  | not
  | negate
  | negateChecked
  | plus
  | convert (ty : Ty)
deriving DecidableEq

/-- The name of an operator. -/
def UnaryOp.name : UnaryOp → String
  | .not => "Not"
  | .negate => "Negate"
  | .negateChecked => "NegateChecked"
  | .plus => "Plus"
  | .convert ty => "Convert(" ++ ty.name ++ ")"

/-- Arithmetic on two numbers of one type. A checked operator fails on overflow
where the unchecked one wraps. -/
inductive Arith where
  | add
  | addChecked
  | sub
  | subChecked
  | mul
  | mulChecked
  | div
  | rem
deriving DecidableEq, Repr

/-- Operators on the bits of two integers of one type, or on two Booleans. -/
inductive Bits where
  | and
  | or
  | xor
deriving DecidableEq, Repr

/-- Shifts of an integer by a 32-bit amount. -/
inductive Shift where
  | left
  | right
deriving DecidableEq, Repr

/-- Whether two values are the same. -/
inductive Equality where
  | eq
  | ne
deriving DecidableEq, Repr

/-- Relations of order between two values. -/
inductive Relation where
  | lt
  | le
  | gt
  | ge
deriving DecidableEq, Repr

/-- Connectives that evaluate their right side only when the left does not decide. -/
inductive Connective where
  | and
  | or
deriving DecidableEq, Repr

/-- Operators on two operands. -/
inductive BinaryOp where
  | arith (op : Arith)
  | bits (op : Bits)
  | shift (op : Shift)
  | equality (op : Equality)
  | relation (op : Relation)
  | connective (op : Connective)
  | concat
deriving DecidableEq, Repr

/-- The name of an arithmetic operator. -/
def Arith.name : Arith → String
  | .add => "Add"
  | .addChecked => "AddChecked"
  | .sub => "Sub"
  | .subChecked => "SubChecked"
  | .mul => "Mul"
  | .mulChecked => "MulChecked"
  | .div => "Div"
  | .rem => "Rem"

/-- The operators on one operand that have no type of their own, by name. -/
def UnaryOp.ofName? (name : String) : Option UnaryOp :=
  [.not, .negate, .negateChecked, .plus].find? (·.name == name)

/-- The symbol of an operator on bits. -/
def Bits.symbol : Bits → String
  | .and => "&"
  | .or => "|"
  | .xor => "^"

namespace BinaryOp

/-- The name of an operator. -/
def name : BinaryOp → String
  | .arith op => op.name
  | .shift .left => "Shl"
  | .shift .right => "Shr"
  | .bits .and => "BitAnd"
  | .bits .or => "BitOr"
  | .bits .xor => "BitXor"
  | .equality .eq => "Eq"
  | .equality .ne => "Ne"
  | .relation .lt => "Lt"
  | .relation .le => "Le"
  | .relation .gt => "Gt"
  | .relation .ge => "Ge"
  | .connective .and => "AndAlso"
  | .connective .or => "OrElse"
  | .concat => "Concat"

/-- All operators. -/
def all : List BinaryOp :=
  [.arith .add, .arith .addChecked, .arith .sub, .arith .subChecked, .arith .mul,
    .arith .mulChecked, .arith .div, .arith .rem, .shift .left, .shift .right, .bits .and,
    .bits .or, .bits .xor, .equality .eq, .equality .ne, .relation .lt, .relation .le,
    .relation .gt, .relation .ge, .connective .and, .connective .or, .concat]

/-- The operator with a name. -/
def ofName? (name : String) : Option BinaryOp :=
  all.find? (·.name == name)

/-- The symbol that stands between the operands. -/
def symbol : BinaryOp → String
  | .arith .add | .arith .addChecked => "+"
  | .arith .sub | .arith .subChecked => "-"
  | .arith .mul | .arith .mulChecked => "*"
  | .arith .div => "/"
  | .arith .rem => "%"
  | .bits op => op.symbol
  | .shift .left => "<<"
  | .shift .right => ">>"
  | .equality .eq => "=="
  | .equality .ne => "!="
  | .relation .lt => "<"
  | .relation .le => "<="
  | .relation .gt => ">"
  | .relation .ge => ">="
  | .connective .and => "&&"
  | .connective .or => "||"
  | .concat => "++"

/-- The operators whose chains may be regrouped. -/
def isAssociative : BinaryOp → Bool
  | .arith .add | .arith .addChecked | .arith .mul | .arith .mulChecked => true
  | _ => false

/-- The operators that compare two values. -/
def isComparison : BinaryOp → Bool
  | .equality _ | .relation _ => true
  | _ => false

end BinaryOp

/-- The methods that an expression may call. -/
inductive Method where
  | addDays
  | abs
  | toUpper
  | toLower
  | length
  | startsWith
  | endsWith
  | contains
  | now
deriving DecidableEq, Repr

namespace Method

/-- The name of a method. -/
def name : Method → String
  | .addDays => "AddDays"
  | .abs => "Abs"
  | .toUpper => "ToUpper"
  | .toLower => "ToLower"
  | .length => "Length"
  | .startsWith => "StartsWith"
  | .endsWith => "EndsWith"
  | .contains => "Contains"
  | .now => "Now"

/-- All methods. -/
def all : List Method :=
  [.addDays, .abs, .toUpper, .toLower, .length, .startsWith, .endsWith, .contains, .now]

/-- The method with a name. -/
def ofName? (name : String) : Option Method :=
  all.find? (·.name == name)

/-- The methods that are called on no object. -/
def isStatic : Method → Bool
  | .abs | .now => true
  | _ => false

/-- The methods that give the same value for the same operands at any time. -/
def isPure : Method → Bool
  | .now => false
  | _ => true

/-- Every method is found by its name. -/
theorem ofName?_name (m : Method) : ofName? m.name = some m := by
  cases m <;> decide

end Method

/-- Every operator is found by its name. -/
theorem BinaryOp.ofName?_name : ∀ op : BinaryOp, ofName? op.name = some op
  | .arith op => by cases op <;> decide
  | .bits op => by cases op <;> decide
  | .shift op => by cases op <;> decide
  | .equality op => by cases op <;> decide
  | .relation op => by cases op <;> decide
  | .connective op => by cases op <;> decide
  | .concat => by decide

end SeqQuery
