/-
# Binary floating point, taken apart

A finite binary number is `±m · 2^q` with natural `m`; the two widths differ only in
how many bits hold the fraction and the exponent. Printing and exact remainders
work on this form, in exact natural-number arithmetic.

Key definitions: `Binary`, `Binary.ofBits`, `Binary.ofFloat`, `Binary.ofFloat32`,
`Binary.remainder`, `nearestSingle`.
-/
namespace SeqQuery

/-- A binary floating-point number. In `finite negative m q narrow` the magnitude
is `m · 2^q`, and `narrow` says that the next smaller number is only half a unit
away, as it is at the powers of two. -/
inductive Binary where
  | nan
  | infinite (negative : Bool)
  | finite (negative : Bool) (m : Nat) (q : Int) (narrow : Bool)
deriving DecidableEq, Repr

namespace Binary

/-- The number that a bit pattern stands for, in a format with a sign bit,
`exponentBits` bits of biased exponent and `fractionBits` bits of fraction. -/
def ofBits (exponentBits fractionBits bits : Nat) : Binary :=
  let fractions := Nat.pow 2 fractionBits
  let exponents := Nat.pow 2 exponentBits
  let fraction := bits % fractions
  let exponent := bits / fractions % exponents
  let negative := decide (bits / (fractions * exponents) % 2 = 1)
  let least : Int := 2 - (exponents / 2 : Nat) - fractionBits
  if exponent = exponents - 1 then
    if fraction = 0 then .infinite negative else .nan
  else if exponent = 0 then .finite negative fraction least false
  else .finite negative (fractions + fraction) (least + exponent - 1)
    (decide (fraction = 0 ∧ 1 < exponent))

/-- A double taken apart. -/
def ofFloat (x : Float) : Binary :=
  ofBits 11 52 x.toBits.toNat

/-- A single taken apart. -/
def ofFloat32 (x : Float32) : Binary :=
  ofBits 8 23 x.toBits.toNat

/-- The double with a magnitude of `m · 2^q`, exact when there is one. -/
def toFloat (negative : Bool) (m : Nat) (q : Int) : Float :=
  let magnitude := (Float.ofNat m).scaleB q
  if negative then -magnitude else magnitude

/-- The remainder of a division whose quotient is cut off toward zero. It is exact,
it has the sign of the dividend, and it is not a number when the dividend is
infinite or the divisor zero. -/
def remainder (x y : Float) : Float :=
  match ofFloat x, ofFloat y with
  | .finite negative m q _, .finite _ n r _ =>
    if n = 0 then 0.0 / 0.0
    else
      let unit := min q r
      let dividend := m * Nat.pow 2 (q - unit).toNat
      let divisor := n * Nat.pow 2 (r - unit).toNat
      toFloat negative (dividend % divisor) unit
  | .finite _ _ _ _, .infinite _ => x
  | _, _ => 0.0 / 0.0

end Binary

/-- The nearest single of a double. Halfway between two singles it is the even one, and a
double that is too great for a single becomes infinite. -/
def nearestSingle (x : Float) : Float32 :=
  .ofModel <| .pack <|
    match x.toModel.unpack with
    | .finite sign mantissa exponent _ =>
      Float.Model.UnpackedFloat.round Float.Model.Format.binary32 sign mantissa exponent
    | special => special

/-- Zero is a single. -/
theorem nearestSingle_zero : nearestSingle 0 = 0 := by decide

end SeqQuery
