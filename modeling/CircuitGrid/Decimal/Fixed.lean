import CircuitGrid.Decimal.Binary

/-!
# Numbers with a fixed number of decimal places

The exact value of the double is rounded once, ties to even, and every digit before the point is
written. A negative zero keeps its sign, also when it arises from rounding.

* `fixed`: the text of a double with the given number of places.
-/

namespace CircuitGrid

/-- The digits of `n` with at least `width` places, padded by zeros on the left. -/
def paddedDigits (width n : Nat) : String :=
  let digits := toString n
  "".pushn '0' (width - digits.length) ++ digits

/-- The integer nearest to the magnitude of `x` times `10 ^ places`. -/
def scaledMagnitude (places : Nat) (x : Dyadic) : Nat :=
  Dyadic.roundDiv (x.mantissa * Nat.pow 2 x.exponent.toNat * Nat.pow 10 places)
    (Nat.pow 2 (-x.exponent).toNat)

/-- A double with `places` digits after the point. -/
def fixed (places : Nat) (x : Float) : String :=
  if x.isNaN then "NaN"
  else
    let sign := if isNegative x then "-" else ""
    if x.isInf then sign ++ "inf"
    else
      let scaled := scaledMagnitude places (.ofFloat x)
      let unit := Nat.pow 10 places
      sign ++ toString (scaled / unit) ++ "." ++ paddedDigits places (scaled % unit)

end CircuitGrid
