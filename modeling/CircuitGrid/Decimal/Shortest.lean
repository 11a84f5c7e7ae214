import CircuitGrid.Decimal.Binary

/-!
# The fewest decimal digits that identify a double

Around every double lies the interval of reals that round to it. A decimal in that interval reads
back as the double, so the shortest one in it is the natural text of the double.

* `Dyadic.readsBack`: the interval test, by exact cross-multiplication;
* `Dyadic.shortest`: the shortest decimal in the interval; of two, the nearer to the value.
-/

namespace CircuitGrid

/-- The decimal number `digits * 10 ^ exponent`. -/
structure Decimal where
  digits : Nat
  exponent : Int
deriving Repr, DecidableEq

namespace Decimal

/-- Drops up to `fuel` trailing zeros of the digits into the exponent. -/
def stripZeros : Nat → Decimal → Decimal
  | 0, d => d
  | fuel + 1, d =>
    if d.digits ≠ 0 ∧ d.digits % 10 = 0 then stripZeros fuel ⟨d.digits / 10, d.exponent + 1⟩ else d

/-- The same number without trailing zeros in the digits. -/
def normalize (d : Decimal) : Decimal := d.stripZeros (Nat.log2 d.digits + 1)

end Decimal

namespace Dyadic

/-- Whether the decimal rounds to this double. The ends of the interval lie halfway to the
neighbours and belong to it exactly when the mantissa is even. -/
def readsBack (x : Dyadic) (d : Decimal) : Bool :=
  let low := if x.narrowBelow then 4 * x.mantissa - 1 else 4 * x.mantissa - 2
  let high := 4 * x.mantissa + 2
  let closed := x.mantissa % 2 == 0
  let below := compareScaled d.digits d.exponent low (x.exponent - 2)
  let above := compareScaled d.digits d.exponent high (x.exponent - 2)
  (below == .gt || (closed && below == .eq)) && (above == .lt || (closed && above == .eq))

/-- The largest multiple of `10 ^ grid` that is at most the value, as a multiplier. -/
def floorOn (x : Dyadic) (grid : Int) : Nat :=
  (x.mantissa * Nat.pow 2 x.exponent.toNat * Nat.pow 10 (-grid).toNat) /
    (Nat.pow 2 (-x.exponent).toNat * Nat.pow 10 grid.toNat)

/-- Of the two neighbours of the value on the grid of multiples of `10 ^ grid`, those that read
back: the nearer one, and of two equally near ones the even one. -/
def nearestOn (x : Dyadic) (grid : Int) : Option Decimal :=
  let floor := x.floorOn grid
  let down : Decimal := ⟨floor, grid⟩
  let up : Decimal := ⟨floor + 1, grid⟩
  match x.readsBack down, x.readsBack up with
  | false, false => none
  | true, false => some down
  | false, true => some up
  | true, true =>
    match compareScaled (2 * floor + 1) grid (2 * x.mantissa) x.exponent with
    | .gt => some down
    | .lt => some up
    | .eq => some (if floor % 2 = 0 then down else up)

/-- Raises `k` until the value is below `10 ^ k`, in at most `fuel` steps. -/
def scaleFrom (x : Dyadic) : Nat → Int → Int
  | 0, k => k
  | fuel + 1, k =>
    if compareScaled 1 k x.mantissa x.exponent == .gt then k else scaleFrom x fuel (k + 1)

/-- The least `k` with value below `10 ^ k`; the estimate from the binary logarithm is never too
large and at most two too small. -/
def scale (x : Dyadic) : Int :=
  let binary := (Nat.log2 x.mantissa : Int) + x.exponent
  x.scaleFrom 4 (Int.fdiv (binary * 1233) 4096 - 1)

/-- The shortest decimal that reads back as this non-zero double. Seventeen digits always do; the
exact value stands in for the search coming to an end without a hit. -/
def shortest (x : Dyadic) : Decimal :=
  let scale := x.scale
  let candidate := (List.range 17).findSome? fun n : Nat => x.nearestOn (scale - (n + 1))
  let exact := x.mantissa * Nat.pow 2 x.exponent.toNat * Nat.pow 5 (-x.exponent).toNat
  (candidate.getD ⟨exact, min x.exponent 0⟩).normalize

end Dyadic

end CircuitGrid
