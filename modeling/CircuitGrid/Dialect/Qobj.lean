import CircuitGrid.Dialect.Qiskit
import CircuitGrid.Json.Value

/-!
# Qobj experiments

* `Qobj.emit`: a program as a Qobj with a single experiment, in indented JSON, unless its wires are
  too many to be listed.
-/

namespace CircuitGrid

namespace Qobj

/-- An instruction, without the angles and the label that it does not have. -/
def instruction (i : Instruction) : Json :=
  let (name, params) := Qiskit.call i
  .object ([("name", .text name), ("qubits", .list (i.wires.map .nat))] ++
    Json.nonempty "params" .float params ++ Json.optional "label" .text i.label)

/-- The sizes of an experiment. -/
def config (wires : Nat) : Json := .object [("n_qubits", .nat wires), ("memory_slots", .nat 0)]

/-- The name and the wires of an experiment. -/
def header (wires : Nat) : Json :=
  .object [("name", .text "circuit"), ("n_qubits", .nat wires),
    ("qubit_labels", .list ((List.range wires).map fun i => .list [.text "q", .nat i]))]

/-- A program as a Qobj. -/
def ofProgram (p : Program) : Json :=
  .object [("qobj_id", .text "qsplit"), ("schema_version", .text "1.3.0"), ("type", .text "QASM"),
    ("config", config p.wires),
    ("experiments", .list [.object [("header", header p.wires), ("config", config p.wires),
      ("instructions", .list (p.instructions.map instruction))]])]

/-- The bytes of the label of a wire. -/
def labelBytes : Nat := 24

/-- The text of a program as a Qobj. Every wire has a label in it. -/
def emit (p : Program) : Except (Stop EmitError) String :=
  if Memory.machine.holds labelBytes p.wires then .ok (ofProgram p).pretty else .error .panic

end Qobj

end CircuitGrid
