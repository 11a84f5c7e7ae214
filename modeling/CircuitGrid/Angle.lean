import CircuitGrid.Decimal.Fixed

/-!
# Angles in output text

Angles are in radians. Those within `1e-10` of a common fraction of a half turn are written with the
dialect's name for the constant, all others with six decimal places.

* `Angle.pi`, `Angle.halfPi`, `Angle.quarterPi`: the common angles;
* `Angle.write`, `Angle.writeAll`: the text of angles.
-/

namespace CircuitGrid

namespace Angle

/-- A half turn. -/
def pi : Float := 3.14159265358979323846264338327950288

/-- A quarter turn. -/
def halfPi : Float := 1.57079632679489661923132169163975144

/-- An eighth turn. -/
def quarterPi : Float := 0.785398163397448309615660845819875721

/-- The fractions of a half turn that have a text of their own: sign and divisor. -/
def fractions : List (Float × String × String) :=
  [(1, "", ""), (0.5, "", "/2"), (0.25, "", "/4"), (-0.5, "-", "/2"), (-0.25, "-", "/4"),
    (-1, "-", "")]

/-- The text of an angle in a dialect that calls a half turn `name`. -/
def write (name : String) (angle : Float) : String :=
  match fractions.find? fun (factor, _) => (angle - factor * pi).abs < 1e-10 with
  | some (_, sign, divisor) => sign ++ name ++ divisor
  | none => fixed 6 angle

/-- The texts of angles, separated by commas. -/
def writeAll (name : String) (angles : List Float) : String :=
  ", ".intercalate (angles.map (write name))

end Angle

end CircuitGrid
