import CircuitGrid.Dialect.Braket
import CircuitGrid.Dialect.Cirq
import CircuitGrid.Dialect.OpenQasm
import CircuitGrid.Dialect.QSharp
import CircuitGrid.Dialect.Qobj
import CircuitGrid.Dialect.Quest
import CircuitGrid.Dialect.Quil

/-!
# Writing programs

* `Dialect.emit`: a program in a dialect.
-/

namespace CircuitGrid

/-- A program in a dialect. -/
def Dialect.emit (dialect : Dialect) (p : Program) : Except (Stop EmitError) String :=
  match dialect with
  | .qasm2 => .ok (OpenQasm.emit2 p)
  | .qasm3 => .ok (OpenQasm.emit3 p)
  | .qiskit => .ok (Qiskit.emit p)
  | .quil => Quil.emit p
  | .pyquil => Quil.emitScript p
  | .cirq => Cirq.emit p
  | .tfq => Cirq.emitTensor p
  | .quest => Quest.emit p
  | .qsharp => QSharp.emit p
  | .braket => Braket.emit p
  | .qobj => Qobj.emit p

end CircuitGrid
