/-
# Reading numbers

An integer is an optional sign and at least one digit. A floating-point number is
an optional sign and then `inf`, `infinity` or `nan` in any case, or digits with
at most one point and at least one digit, and an optional exponent. Nothing else
may stand before, between or after. The number read is the double nearest to the
decimal; one that is too large is infinite and one too small is zero.

Key definitions: `readInt?`, `readFloat?`.
-/
namespace SeqQuery

/-- The value of a decimal digit. -/
def digitOf? (c : Char) : Option Nat :=
  if '0' ≤ c ∧ c ≤ '9' then some (c.toNat - '0'.toNat) else none

/-- The value of the digits at the start of a text, after `value`, with the number
of digits read and the rest. -/
def readDigits (value count : Nat) : List Char → Nat × Nat × List Char
  | [] => (value, count, [])
  | c :: rest =>
    match digitOf? c with
    | some digit => readDigits (10 * value + digit) (count + 1) rest
    | none => (value, count, c :: rest)

/-- An optional sign: whether it is a minus, and the rest. -/
def readSign : List Char → Bool × List Char
  | '-' :: rest => (true, rest)
  | '+' :: rest => (false, rest)
  | text => (false, text)

/-- Reads a whole text as an integer of any size. -/
def readInt? (text : List Char) : Option Int :=
  let (negative, rest) := readSign text
  match readDigits 0 0 rest with
  | (value, _ + 1, []) => some (if negative then -value else value)
  | _ => none

/-- Reads an exponent that ends the text; no text is the exponent zero. -/
def readExponent? : List Char → Option Int
  | [] => some 0
  | c :: rest => if c = 'e' ∨ c = 'E' then readInt? rest else none

/-- The double nearest to `digits · 10^exponent`. A decimal far outside the range
of a double is not computed. -/
def floatOfDecimal (digits : Nat) (exponent : Int) : Float :=
  let magnitude := exponent + (Nat.log2 digits : Int) * 30103 / 100000
  if digits = 0 ∨ magnitude < -400 then 0.0
  else if 400 < magnitude then 1.0 / 0.0
  else Float.ofScientific digits (decide (exponent < 0)) exponent.natAbs

/-- Reads the words for numbers that are not finite. -/
def readWord? (text : List Char) : Option Float :=
  let word := text.map Char.toLower
  if word = "inf".toList ∨ word = "infinity".toList then some (1.0 / 0.0)
  else if word = "nan".toList then some (0.0 / 0.0)
  else none

/-- Reads digits with an optional point and exponent. -/
def readDecimal? (text : List Char) : Option Float :=
  let (whole, wholeCount, rest) := readDigits 0 0 text
  let (digits, places, rest) :=
    match rest with
    | '.' :: fraction => readDigits whole 0 fraction
    | rest => (whole, 0, rest)
  if wholeCount + places = 0 then none
  else (readExponent? rest).map fun exponent => floatOfDecimal digits (exponent - places)

/-- Reads a whole text as a floating-point number. -/
def readFloat? (text : List Char) : Option Float :=
  let (negative, rest) := readSign text
  ((readWord? rest).or (readDecimal? rest)).map fun x => if negative then -x else x

end SeqQuery
