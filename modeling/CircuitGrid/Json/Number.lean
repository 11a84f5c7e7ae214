import CircuitGrid.Json.Reader

/-!
# Reading JSON numbers

The digits of a number are collected into a significand of 64 bits; digits that no longer fit are
passed over, those before the point raising the exponent. A number without point and exponent is a
natural number when it fits; every other number is its significand, rounded to a double, scaled by
a power of ten, and rounded again.

* `Number`: what a text can denote;
* `scaleByTen`: the double for a significand and an exponent;
* `Reader.number`: reading a number.
-/

namespace CircuitGrid

/-- The value of a JSON number. -/
inductive Number where
  /-- A natural number below `2 ^ 64`. -/
  | nat (n : Nat)
  /-- Any other number. -/
  | float (x : Float)

namespace Number

/-- The number as a double. -/
def toFloat : Number → Float
  | nat n => Float.ofNat n
  | float x => x

end Number

/-- The double nearest to a power of ten. -/
def tenTo (n : Nat) : Float := Float.ofScientific 1 false n

/-- Scales `x` by `10 ^ exponent`. Exponents below `-308` are taken in steps of that size, three of
which bring every significand to zero. A result beyond the doubles is none. -/
def scaleByTen : Nat → Float → Int → Option Float
  | steps, x, exponent =>
    if exponent.natAbs ≤ 308 then
      if exponent ≥ 0 then
        let scaled := x * tenTo exponent.natAbs
        if scaled.isInf then none else some scaled
      else some (x / tenTo exponent.natAbs)
    else if x == 0 then some x
    else if exponent ≥ 0 then none
    else match steps with
      | 0 => some 0
      | steps + 1 => scaleByTen steps (x / tenTo 308) (exponent + 308)

/-- Appends digits to a significand for as long as it stays below `limit`; the rest is left. -/
def collectDigits (limit : Nat) : Nat → List Char → Nat × List Char
  | significand, [] => (significand, [])
  | significand, c :: rest =>
    let longer := significand * 10 + (c.toNat - 48)
    if longer < limit then collectDigits limit longer rest else (significand, c :: rest)

namespace Reader

/-- Reads the digits that come next. -/
def digits : Reader (List Char) := fun s => .ok (s.takeWhile Char.isDigit, s.dropWhile Char.isDigit)

/-- The fault of a place where a digit has to stand and none does. -/
def digitFault {α : Type} : Reader α := do
  if (← get).isEmpty then throw .truncated else throw .malformed

/-- Reads the digits before the point: none may follow a leading zero. -/
def wholeDigits : Reader (List Char) := do
  let found ← digits
  match found with
  | [] => digitFault
  | '0' :: _ :: _ => throw .malformed
  | _ => return found

/-- Reads the fraction behind a point, if there is one. -/
def fractionDigits : Reader (Option (List Char)) := do
  if (← get).head? = some '.' then
    advance
    match ← digits with
    | [] => digitFault
    | found => return some found
  else return none

/-- Reads an exponent, if there is one: its sign and its digits. -/
def exponentDigits : Reader (Option (Bool × List Char)) := do
  let next := (← get).head?
  if next = some 'e' ∨ next = some 'E' then
    advance
    let sign := (← get).head?
    if sign = some '+' ∨ sign = some '-' then advance
    match ← digits with
    | [] => digitFault
    | found => return some (sign = some '-', found)
  else return none

/-- Gives a double the sign that was read. -/
def signed (negative : Bool) (x : Float) : Float := if negative then -x else x

/-- The double with the given significand and exponents. An exponent of more than 31 bits is as
good as infinite. -/
def assemble (negative : Bool) (significand : Nat) (shift : Int)
    (exponent : Option (Bool × List Char)) : Reader Number := do
  let (down, size, huge) := match exponent with
    | none => (false, 0, false)
    | some (down, found) =>
      let (size, left) := collectDigits (Nat.pow 2 31) 0 found
      (down, size, !left.isEmpty)
  if huge then
    if significand ≠ 0 ∧ ¬down then throw .malformed else return .float (signed negative 0)
  else
    match scaleByTen 3 (Float.ofNat significand) (if down then shift - size else shift + size) with
    | none => throw .malformed
    | some x => return .float (signed negative x)

/-- Reads the number that starts here, behind its sign. -/
def unsigned (negative : Bool) : Reader Number := do
  let (significand, overflow) := collectDigits (Nat.pow 2 64) 0 (← wholeDigits)
  let fraction ← fractionDigits
  let (significand, taken) := match fraction with
    | none => (significand, 0)
    | some found =>
      let (longer, left) := collectDigits (Nat.pow 2 64) significand found
      (longer, found.length - left.length)
  let exponent ← exponentDigits
  if fraction.isNone ∧ exponent.isNone ∧ overflow.isEmpty then
    if negative then return .float (-(Float.ofNat significand)) else return .nat significand
  else assemble negative significand (overflow.length - taken : Int) exponent

/-- Reads a number, whose first character is known to be a sign or a digit. -/
def number : Reader Number := do
  if (← get).head? = some '-' then
    advance
    unsigned true
  else unsigned false

/-! ## Values of the wrong kind -/

/-- Reads a value that is not of the wanted kind. A word, a number or a string is read to its end
first, so that a fault inside it wins. -/
def wrongKind {α : Type} : Reader α := do
  match ← peek with
  | none => throw .malformed
  | some c =>
    if c = 'n' then exactly "null".toList; throw .mismatched
    else if c = 't' then exactly "true".toList; throw .mismatched
    else if c = 'f' then exactly "false".toList; throw .mismatched
    else if c = '-' || c.isDigit then
      let _ ← number
      throw .mismatched
    else if c = '"' then
      advance
      let _ ← textTail
      throw .mismatched
    else if c = '[' || c = '\x7b' then throw .mismatched
    else throw .malformed

/-- Reads a string. -/
def text : Reader String := do
  match ← peek with
  | none => throw .truncated
  | some c =>
    if c = '"' then
      advance
      textTail
    else wrongKind

/-- Reads a number of any kind. -/
def anyNumber : Reader Number := do
  match ← peek with
  | none => throw .truncated
  | some c => if c = '-' || c.isDigit then number else wrongKind

/-- Reads a double. -/
def float : Reader Float := return (← anyNumber).toFloat

/-- Reads a natural number below the limit. -/
def natBelow (limit : Nat) : Reader Nat := do
  match ← anyNumber with
  | .nat n => if n < limit then return n else throw .mismatched
  | .float _ => throw .mismatched

/-- Reads a natural number of 64 bits. -/
def nat : Reader Nat := natBelow (Nat.pow 2 64)

/-- Reads a value or `null`. -/
def optional {α : Type} (value : Reader α) : Reader (Option α) := do
  if (← peek) = some 'n' then
    exactly "null".toList
    return none
  else return some (← value)

end Reader

end CircuitGrid
