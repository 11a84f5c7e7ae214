import CircuitGrid.Angle
import CircuitGrid.Dialect.Basic

/-!
# Qiskit scripts

* `Qiskit.call`: the method and angles for an instruction;
* `Qiskit.emit`: a script that builds the circuit `qc`.
-/

namespace CircuitGrid

namespace Qiskit

/-- The method and the angles for an instruction. -/
def call (i : Instruction) : String × List Float :=
  match i.op with
  | .phase => ("p", i.params)
  | .cphase => ("cp", i.params)
  | .ct => ("cp", [Angle.quarterPi])
  | .ctdg => ("cp", [-Angle.quarterPi])
  | op => (op.name, i.params)

/-- The lines of an instruction: angles come before wires. -/
def lines (i : Instruction) : List String :=
  let (method, params) := call i
  let arguments := params.map (Angle.write "pi") ++ wireNumbers i.wires
  i.commentLines "# " ++ ["qc." ++ method ++ "(" ++ ", ".intercalate arguments ++ ")"]

/-- A script that builds the circuit `qc`. -/
def emit (p : Program) : String :=
  unlines (["from qiskit import QuantumCircuit", "from math import pi", "",
    s!"qc = QuantumCircuit({p.wires})"] ++ p.instructions.flatMap lines)

end Qiskit

end CircuitGrid
