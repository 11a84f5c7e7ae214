import CircuitGrid.Machine

/-!
# Matrices of gates

Matrices are square lists of complex doubles, row after row. The top wire of a gate is the most
significant bit of the index, so the matrix of the controlled NOT has its control on the first wire.

* `Complex`: complex numbers with double components, and their modulus;
* `Matrix`: the matrices of the built-in gates;
* `Matrix.isUnitary`, `Matrix.approximates`: comparison within a tolerance;
* `Matrix.unitary?`: the test for unitary matrices, which counts entries in words;
* `Matrix.side?`: the side of a square matrix whose side is a power of two.
-/

namespace CircuitGrid

/-- A complex number. -/
structure Complex where
  re : Float
  im : Float
deriving Repr, BEq

namespace Complex

def zero : Complex := ⟨0, 0⟩
def one : Complex := ⟨1, 0⟩

def add (a b : Complex) : Complex := ⟨a.re + b.re, a.im + b.im⟩
def sub (a b : Complex) : Complex := ⟨a.re - b.re, a.im - b.im⟩
def neg (a : Complex) : Complex := ⟨-a.re, -a.im⟩
def conj (a : Complex) : Complex := ⟨a.re, -a.im⟩

def mul (a b : Complex) : Complex :=
  ⟨a.re * b.re - a.im * b.im, a.re * b.im + a.im * b.re⟩

/-- The hypotenuse over legs `y ≤ x` whose squares neither overflow nor vanish: the root of the sum
of the squares, less the error that rounding has left in it. The error is the excess of the square
of the root over that sum, divided by twice the root. -/
def hypotenuse (x y : Float) : Float :=
  let root := (x * x + y * y).sqrt
  let excess :=
    if root ≤ 2 * y then
      let past := root - y
      x * (2 * past - x) + (past - 2 * (x - y)) * past
    else
      let past := root - x
      2 * past * (x - 2 * y) + ((4 * past - y) * y + past * past)
  root - excess / (2 * root)

/-- The power of two by which legs `y ≤ x` are multiplied for the sake of their squares: `2 ^ -600`
for a leg above `2 ^ 511`, and `2 ^ 600` for one below `2 ^ -459`. -/
def legScale (x y : Float) : Float :=
  if 6.703903964971299e153 < x then 2.409919865102884e-181
  else if y < 6.717876107567089e-139 then 4.149515568880993e180
  else 1

/-- The modulus of a number. A part that is `2 ^ 54` times the other one stands for the whole. -/
def modulus (a : Complex) : Float :=
  let re := a.re.abs
  let im := a.im.abs
  if re.isInf then re
  else if im.isInf then im
  else
    let (x, y) := if re < im then (im, re) else (re, im)
    if y * 18014398509481984 ≤ x then x + y
    else
      let scale := legScale x y
      hypotenuse (x * scale) (y * scale) / scale

end Complex

/-- The bytes of a complex number in a list. -/
def entryBytes : Nat := 16

/-- The entries of a square matrix, row after row. -/
abbrev Matrix : Type := List Complex

namespace Matrix

/-- The entry of an identity matrix. -/
def unitEntry (i j : Nat) : Complex := if i = j then .one else .zero

/-- The identity matrix of a given side. -/
def identity (side : Nat) : Matrix :=
  (List.range side).flatMap fun i => (List.range side).map (unitEntry i)

/-- The identity matrix, unless its entries cannot be held. -/
def identity? (side : Nat) : Option Matrix :=
  if Memory.machine.holds entryBytes (side * side) then some (identity side) else none

def pauliX : Matrix := [.zero, .one, .one, .zero]
def pauliY : Matrix := [.zero, ⟨0, -1⟩, ⟨0, 1⟩, .zero]
def pauliZ : Matrix := [.one, .zero, .zero, ⟨-1, 0⟩]

def hadamard : Matrix :=
  let s : Complex := ⟨0.70710678118654752440, 0⟩
  [s, s, s, s.neg]

/-- The phase gate, which turns the second basis state by `theta`. -/
def phase (theta : Float) : Matrix := [.one, .zero, .zero, ⟨theta.cos, theta.sin⟩]

/-- The rotation about X by `theta`. -/
def rotationX (theta : Float) : Matrix :=
  let c : Complex := ⟨(theta / 2).cos, 0⟩
  let s : Complex := ⟨0, -(theta / 2).sin⟩
  [c, s, s, c]

/-- The rotation about Y by `theta`. -/
def rotationY (theta : Float) : Matrix :=
  let c : Complex := ⟨(theta / 2).cos, 0⟩
  let s : Complex := ⟨(theta / 2).sin, 0⟩
  [c, s.neg, s, c]

/-- The square root of X. -/
def sqrtX : Matrix := [⟨0.5, 0.5⟩, ⟨0.5, -0.5⟩, ⟨0.5, -0.5⟩, ⟨0.5, 0.5⟩]

/-- The inverse of the square root of X. -/
def sqrtXInverse : Matrix := [⟨0.5, -0.5⟩, ⟨0.5, 0.5⟩, ⟨0.5, 0.5⟩, ⟨0.5, -0.5⟩]

/-- The matrix on two wires that applies a one-wire matrix when the first wire is on. -/
def controlled (u : Matrix) : Matrix :=
  [.one, .zero, .zero, .zero, .zero, .one, .zero, .zero, .zero, .zero] ++ u.take 2 ++
    [.zero, .zero] ++ (u.drop 2).take 2

/-- The same for any list of entries, the first four of which are looked for. -/
def controlled? (u : Matrix) : Option Matrix := if u.length < 4 then none else some u.controlled

def cnot : Matrix := controlled pauliX
def cz : Matrix := controlled pauliZ

def swap : Matrix :=
  [.one, .zero, .zero, .zero, .zero, .zero, .one, .zero,
    .zero, .one, .zero, .zero, .zero, .zero, .zero, .one]

/-- The `k` with `4 ^ k = n`, looked for among the first `fuel` powers. -/
def powerOfFour? (n : Nat) : Nat → Option Nat
  | 0 => none
  | fuel + 1 => if Nat.pow 4 fuel = n then some fuel else powerOfFour? n fuel

/-- The number of wires of a matrix with `entries` entries, if its side is a power of two. -/
def wires? (entries : Nat) : Option Nat := powerOfFour? entries (Nat.log2 entries + 1)

/-- The side of a matrix with `entries` entries, if it is a power of two. -/
def side? (entries : Nat) : Option Nat := (wires? entries).map (Nat.pow 2)

/-- Whether two matrices agree entry by entry within `1e-10`. -/
def approximates (a b : Matrix) : Bool :=
  a.length == b.length &&
    (a.zip b).all fun (x, y) => (x.sub y).modulus < 1e-10

/-- The rows of a matrix. -/
def rows (m : Matrix) (side : Nat) : List (List Complex) :=
  (List.range side).map fun i => (m.drop (i * side)).take side

/-- The product of one row with the conjugate of another. -/
def inner (a b : List Complex) : Complex :=
  (a.zip b).foldl (fun sum (x, y) => sum.add (x.mul y.conj)) .zero

/-- Whether a matrix of the given side, multiplied by its adjoint, is the identity within `1e-8`. A
distance that is not a number is not above the tolerance. -/
def isUnitary (m : Matrix) (side : Nat) : Bool :=
  m.length == side * side &&
    (m.rows side).zipIdx.all fun (a, i) => (m.rows side).zipIdx.all fun (b, j) =>
      ¬ 1e-8 < ((inner a b).sub (unitEntry i j)).modulus

/-- Tests whether a matrix of the given side is unitary. The number of entries is compared in words,
and a matrix that only fits because the square of the side wraps around lacks entries: looking for
them panics. -/
def unitary? (m : Matrix) (side : Nat) : Option Bool :=
  if m.length ≠ side * side % wordLimit then some false
  else if m.length < side * side then none
  else some (m.isUnitary side)

theorem length_of_isUnitary {m : Matrix} {side : Nat} (unitary : m.isUnitary side) :
    m.length = side * side := by
  simp only [isUnitary, Bool.and_eq_true, beq_iff_eq] at unitary
  exact unitary.1

/-- A matrix passes the test when it is unitary and its entries can be counted in a word. -/
theorem unitary?_eq_some_true {m : Matrix} {side : Nat} :
    m.unitary? side = some true ↔ m.isUnitary side ∧ side * side < wordLimit := by
  unfold unitary?
  split
  · next other =>
    simp only [Option.some.injEq, Bool.false_eq_true, false_iff]
    intro ⟨unitary, few⟩
    exact other (by rw [length_of_isUnitary unitary, Nat.mod_eq_of_lt few])
  · next counted =>
    have length : m.length = side * side % wordLimit := Decidable.not_not.mp counted
    have word : side * side % wordLimit < wordLimit := Nat.mod_lt _ (by decide)
    split
    · next short =>
      simp only [reduceCtorEq, false_iff]
      intro ⟨unitary, _⟩
      have := length_of_isUnitary unitary
      omega
    · next enough =>
      rw [Option.some.injEq, iff_self_and]
      intro unitary
      have := length_of_isUnitary unitary
      omega

end Matrix

end CircuitGrid
