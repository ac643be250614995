/-
# The shortest decimal that reads back

A binary number is written with the fewest decimal digits that still identify it:
the digits of a point on the coarsest power-of-ten grid that has a point between
the halfway marks to the two neighbours. The halfway marks belong to the number
when its mantissa is even, as they do when a decimal is read. Of two such points
the nearer is taken.

The digits are always written in positional notation, however long, with no
exponent, and an integral number has no point.

Key definitions: `Decimal`, `Decimal.shortest`, `Decimal.text`, `Binary.text`.
-/
import SeqQuery.Decimal.Binary

namespace SeqQuery

/-- The decimal `digits · 10^exponent`. -/
structure Decimal where
  digits : Nat
  exponent : Int
deriving DecidableEq, Repr

namespace Decimal

/-- The point of the grid of step `10^e` that stands for `m · 2^q`, if the grid
has one between the halfway marks. A tie between two points goes to the greater. -/
def onGrid? (m : Nat) (q : Int) (narrow : Bool) (e : Int) : Option Nat :=
  let scale := Nat.pow 2 (q - 2).toNat * Nat.pow 10 (-e).toNat
  let step := Nat.pow 10 e.toNat * Nat.pow 2 (2 - q).toNat
  let value := 4 * m * scale
  let lower := (4 * m - if narrow then 1 else 2) * scale
  let upper := (4 * m + 2) * scale
  let within (point : Nat) : Bool :=
    if m % 2 = 0 then lower ≤ point * step ∧ point * step ≤ upper
    else lower < point * step ∧ point * step < upper
  let below := value / step
  match within below, within (below + 1) with
  | true, false => some below
  | false, true => some (below + 1)
  | true, true =>
    some (if value - below * step < (below + 1) * step - value then below else below + 1)
  | false, false => none

/-- Tries ever finer grids from step `10^e` on. -/
def search (m : Nat) (q : Int) (narrow : Bool) : Nat → Int → Decimal
  | 0, e => ⟨m, e⟩
  | tries + 1, e =>
    match onGrid? m q narrow e with
    | some digits => ⟨digits, e⟩
    | none => search m q narrow tries (e - 1)

/-- The shortest decimal for the positive number `m · 2^q`. The first grid tried is
coarser than the number is large; seventeen digits always suffice for a double. -/
def shortest (m : Nat) (q : Int) (narrow : Bool) : Decimal :=
  search m q narrow 24 ((Nat.log2 m + q) * 30103 / 100000 + 2)

/-- The positional text of a decimal. -/
def text (d : Decimal) : String :=
  let digits := (Nat.toDigits 10 d.digits)
  if 0 ≤ d.exponent then String.ofList (digits ++ List.replicate d.exponent.toNat '0')
  else
    let places := (-d.exponent).toNat
    let padded := List.replicate (places + 1 - digits.length) '0' ++ digits
    String.ofList (padded.take (padded.length - places))
      ++ "." ++ String.ofList (padded.drop (padded.length - places))

end Decimal

/-- The text of a binary number: the shortest decimal in positional notation, with
the sign of a negative zero kept. -/
def Binary.text : Binary → String
  | .nan => "NaN"
  | .infinite negative => if negative then "-inf" else "inf"
  | .finite negative m q narrow =>
    (if negative then "-" else "") ++ if m = 0 then "0" else (Decimal.shortest m q narrow).text

end SeqQuery
