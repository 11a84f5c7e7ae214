import CircuitGrid.Decimal.Shortest

/-!
# The default text of a number

A finite double is written with the fewest digits that identify it: positionally, and always with a
point, when its leading digit stands between `10 ^ -5` and `10 ^ 15`, otherwise with an exponent
that carries its sign.

* `natural`: the text of a finite double.
-/

namespace CircuitGrid

/-- The positional text of the digits when the leading one has the given exponent. -/
def positional (digits : String) (leading : Int) : String :=
  if leading < 0 then
    "0." ++ "".pushn '0' (-leading - 1).toNat ++ digits
  else
    let whole := leading.toNat + 1
    if digits.length ≤ whole then digits.pushn '0' (whole - digits.length) ++ ".0"
    else String.ofList (digits.toList.take whole) ++ "." ++ String.ofList (digits.toList.drop whole)

/-- The text of the digits with an exponent: a point follows the first digit if more follow. -/
def scientific (digits : String) (leading : Int) : String :=
  let head := String.ofList (digits.toList.take 1)
  let tail := String.ofList (digits.toList.drop 1)
  let mantissa := if tail.isEmpty then head else head ++ "." ++ tail
  let sign := if leading < 0 then "-" else "+"
  mantissa ++ "e" ++ sign ++ toString leading.natAbs

/-- The text of a finite double; zero keeps its sign. -/
def natural (x : Float) : String :=
  let magnitude := Dyadic.ofFloat x
  let sign := if isNegative x then "-" else ""
  if magnitude.mantissa = 0 then sign ++ "0.0"
  else
    let decimal := magnitude.shortest
    let digits := toString decimal.digits
    let leading := decimal.exponent + digits.length - 1
    sign ++ if -5 ≤ leading ∧ leading ≤ 15 then positional digits leading
      else scientific digits leading

end CircuitGrid
