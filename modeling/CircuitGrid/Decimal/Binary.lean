/-!
# Doubles as exact binary numbers

A finite double is a natural number times a power of two. Reading it off the bits turns every
question about its size, its decimal digits or its neighbours into exact arithmetic.

* `Dyadic.ofFloat`: the magnitude of a finite double;
* `Dyadic.compareScaled`: the exact order of `a * 10 ^ i` and `n * 2 ^ j`;
* `Dyadic.roundDiv`: a quotient rounded to the nearest natural number, ties to even.
-/

namespace CircuitGrid

/-- The magnitude of a finite double, `mantissa * 2 ^ exponent`. -/
structure Dyadic where
  mantissa : Nat
  exponent : Int
  /-- The gap to the double below is half the gap to the double above. -/
  narrowBelow : Bool
deriving Repr, DecidableEq

namespace Dyadic

/-- The magnitude in the bits of a finite double. The sign bit is not read. -/
def ofBits (bits : UInt64) : Dyadic :=
  let biased := ((bits >>> 52) &&& 0x7FF).toNat
  let fraction := (bits &&& 0xFFFFFFFFFFFFF).toNat
  if biased = 0 then ⟨fraction, -1074, false⟩
  else ⟨Nat.pow 2 52 + fraction, (biased : Int) - 1075, fraction == 0 && biased > 1⟩

/-- The magnitude of a finite double. -/
def ofFloat (x : Float) : Dyadic := ofBits x.toBits

/-- The exact order of `a * 10 ^ i` and `n * 2 ^ j`. -/
def compareScaled (a : Nat) (i : Int) (n : Nat) (j : Int) : Ordering :=
  compare (a * Nat.pow 10 i.toNat * Nat.pow 2 (-j).toNat)
    (n * Nat.pow 2 j.toNat * Nat.pow 10 (-i).toNat)

/-- The natural number nearest to `num / den`; halfway cases go to the even neighbour. -/
def roundDiv (num den : Nat) : Nat :=
  let quotient := num / den
  match compare (2 * (num % den)) den with
  | .lt => quotient
  | .gt => quotient + 1
  | .eq => if quotient % 2 = 0 then quotient else quotient + 1

end Dyadic

/-- Whether the sign bit of a double is set; true of negative zero. -/
def isNegative (x : Float) : Bool := x.toBits >>> 63 == 1

end CircuitGrid
