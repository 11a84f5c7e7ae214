import CircuitGrid.Angle
import CircuitGrid.Gate

/-!
# The built-in gates

Controls, swap halves, spacers, the Pauli gates with their roots, and the two recognised two-wire
gates. Each is known by its id.

* `Catalog.gates`: all built-in gates;
* `Catalog.find?`: the built-in gate with a given id;
* `Catalog.ids`: the ids in order.
-/

namespace CircuitGrid

namespace Catalog

open Angle (halfPi quarterPi)

/-- A gate of one row with an operation, its controlled form and a matrix. -/
def unitary (id title : String) (op controlled : Op) (matrix : Matrix) : Gate :=
  { Gate.basic id title with
    exports := some ⟨op, some controlled, [], []⟩, matrix := some matrix }

/-- A gate of one row that turns by an angle, with or without a control. -/
def rotation (id title : String) (op controlled : Op) (matrix : Float → Matrix) (angle : Float) :
    Gate :=
  { Gate.basic id title with
    exports := some ⟨op, some controlled, [angle], [angle]⟩, matrix := some (matrix angle) }

/-- A cell with a role and no data. -/
def marker (id title : String) (role : Role Circuit) : Gate :=
  { Gate.basic id title with role := role }

/-- A recognised gate on two neighbouring wires. -/
def twoWire (id title : String) (kind : Entangler) : Gate :=
  { Gate.basic id title with
    exports := some ⟨kind.op, none, [], []⟩, matrix := some kind.matrix,
    entangler := some kind }.withHeight 2

/-- The cells that shape their column: controls, swap halves and spacers. -/
def markers : List Gate := [
  marker "•" "Control" .control,
  marker "◦" "Anti-Control" .antiControl,
  marker "xpar" "Parity Control (X)" (.parity .x),
  marker "ypar" "Parity Control (Y)" (.parity .y),
  marker "zpar" "Parity Control (Z)" (.parity .z),
  { marker "Swap" "Swap Gate [Half]" .swapHalf with
    exports := some ⟨.swap, some .cswap, [], []⟩ },
  { Gate.basic "…" "Spacer" with inert := true }]

/-- The gates on one wire. -/
def oneWire : List Gate := [
  unitary "X" "Pauli X Gate" .x .cx .pauliX,
  unitary "Y" "Pauli Y Gate" .y .cy .pauliY,
  unitary "Z" "Pauli Z Gate" .z .cz .pauliZ,
  unitary "H" "Hadamard Gate" .h .ch .hadamard,
  unitary "Z^½" "√Z Gate" .s .cs (.phase halfPi),
  unitary "Z^-½" "Z^-½ Gate" .sdg .csdg (.phase (-halfPi)),
  unitary "Z^¼" "Z^¼ Gate" .t .ct (.phase quarterPi),
  unitary "Z^-¼" "Z^-¼ Gate" .tdg .ctdg (.phase (-quarterPi)),
  unitary "X^½" "√X Gate" .sx .csx .sqrtX,
  { unitary "X^-½" "X^-½ Gate" .sxdg .crx .sqrtXInverse with
    exports := some ⟨.sxdg, some .crx, [], [-halfPi]⟩ },
  rotation "X^¼" "X^¼ Gate" .rx .crx .rotationX quarterPi,
  rotation "X^-¼" "X^-¼ Gate" .rx .crx .rotationX (-quarterPi),
  rotation "Y^½" "√Y Gate" .ry .cry .rotationY halfPi,
  rotation "Y^-½" "Y^-½ Gate" .ry .cry .rotationY (-halfPi),
  rotation "Y^¼" "Y^¼ Gate" .ry .cry .rotationY quarterPi,
  rotation "Y^-¼" "Y^-¼ Gate" .ry .cry .rotationY (-quarterPi)]

/-- All built-in gates. -/
def gates : List Gate :=
  markers ++ oneWire ++
    [twoWire "CNOT" "Controlled-NOT" .cx, twoWire "CZ" "Controlled-Z" .cz]

/-- The built-in gate with a given id. -/
def find? (id : String) : Option Gate := gates.find? (·.id == id)

/-- The ids of the built-in gates in order. -/
def ids : List String := (gates.map (·.id)).mergeSort

end Catalog

end CircuitGrid
