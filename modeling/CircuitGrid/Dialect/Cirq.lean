import CircuitGrid.Angle
import CircuitGrid.Dialect.Basic

/-!
# Cirq and TensorFlow Quantum scripts

Both build a circuit with one moment for each output column. Cirq applies named or wrapped
controlled gates; TensorFlow Quantum knows controls only as an addition to the target gate.

* `Cirq.target`: the gate on the targets and the number of controls of an instruction;
* `Cirq.emit`, `Cirq.emitTensor`: the two scripts.
-/

namespace CircuitGrid

namespace Cirq

/-- The gate on the targets of an instruction, and the number of wires before them that control
it. -/
def target (i : Instruction) : String × Nat :=
  let angles := Angle.writeAll "np.pi" i.params
  let turn := s!"cirq.ZPowGate(exponent={angles} / np.pi)"
  match i.op with
  | .x => ("cirq.X", 0)
  | .y => ("cirq.Y", 0)
  | .z => ("cirq.Z", 0)
  | .h => ("cirq.H", 0)
  | .s => ("cirq.S", 0)
  | .sdg => ("cirq.S**-1", 0)
  | .t => ("cirq.T", 0)
  | .tdg => ("cirq.T**-1", 0)
  | .sx => ("cirq.X**0.5", 0)
  | .sxdg => ("cirq.X**-0.5", 0)
  | .rx => (s!"cirq.rx({angles})", 0)
  | .ry => (s!"cirq.ry({angles})", 0)
  | .rz => (s!"cirq.rz({angles})", 0)
  | .phase => (turn, 0)
  | .cx => ("cirq.X", 1)
  | .cy => ("cirq.Y", 1)
  | .cz => ("cirq.Z", 1)
  | .ch => ("cirq.H", 1)
  | .cs => ("cirq.S", 1)
  | .csdg => ("cirq.S**-1", 1)
  | .ct => ("cirq.T", 1)
  | .ctdg => ("cirq.T**-1", 1)
  | .csx => ("cirq.X**0.5", 1)
  | .crx => (s!"cirq.rx({angles})", 1)
  | .cry => (s!"cirq.ry({angles})", 1)
  | .crz => (s!"cirq.rz({angles})", 1)
  | .cphase => (turn, 1)
  | .ccx => ("cirq.X", 2)
  | .swap => ("cirq.SWAP", 0)
  | .cswap => ("cirq.SWAP", 1)

/-- The gate that Cirq has for a whole instruction, controls included. -/
def whole? (i : Instruction) : Option String :=
  match i.op with
  | .cx => some "cirq.CNOT"
  | .cz => some "cirq.CZ"
  | .ccx => some "cirq.CCX"
  | .cswap => some "cirq.CSWAP"
  | .cphase =>
    let angles := Angle.writeAll "np.pi" i.params
    some s!"cirq.CZPowGate(exponent={angles} / np.pi)"
  | _ => none

/-- The arguments of a gate. -/
def applied (wires : List Nat) : String := "(" ++ ", ".intercalate (registerItems wires) ++ ")"

/-- The operation of an instruction in Cirq. -/
def operation (i : Instruction) : Except (Stop EmitError) String :=
  let (gate, controls) := target i
  if i.wires.length < controls then .error .panic
  else
    let gate := match whole? i with
      | some whole => whole
      | none => if controls = 0 then gate else "cirq.ControlledGate(" ++ gate ++ ")"
    .ok (gate ++ applied i.wires)

/-- The operation of an instruction in TensorFlow Quantum. -/
def tensorOperation (i : Instruction) : Except (Stop EmitError) String :=
  let (gate, controls) := target i
  if i.wires.length < controls then .error .panic
  else
    let call := gate ++ applied (i.wires.drop controls)
    if controls = 0 then .ok call
    else .ok (call ++ ".controlled_by" ++ applied (i.wires.take controls))

/-- The lines of output columns: a heading, the labels, and the moment. -/
def momentLines (operation : Instruction → Except (Stop EmitError) String) :
    List (Nat × List Instruction) → Except (Stop EmitError) (List String)
  | [] => .ok []
  | (column, group) :: rest => do
    let operations ← group.mapM operation
    let lines := [s!"# column {column}"] ++ group.flatMap (·.commentLines "# ") ++
      ["circuit.append(cirq.Moment([" ++ ", ".intercalate operations ++ "]))"]
    return lines ++ (← momentLines operation rest)

/-- A Cirq script that builds `circuit`. -/
def emit (p : Program) : Except (Stop EmitError) String := do
  let moments ← momentLines operation p.byColumn
  return unlines (["import cirq", "import numpy as np", "",
    s!"q = cirq.LineQubit.range({p.wires})", "circuit = cirq.Circuit()"] ++ moments)

/-- A Cirq script on grid qubits, converted to a tensor. -/
def emitTensor (p : Program) : Except (Stop EmitError) String := do
  let moments ← momentLines tensorOperation p.byColumn
  return unlines (["import cirq", "import numpy as np", "import tensorflow_quantum as tfq", "",
    s!"q = cirq.GridQubit.rect(1, {p.wires})", "circuit = cirq.Circuit()"] ++ moments ++
    ["", "circuit_tensor = tfq.convert_to_tensor([circuit])"])

end Cirq

end CircuitGrid
