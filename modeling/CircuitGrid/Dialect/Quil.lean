import CircuitGrid.Angle
import CircuitGrid.Dialect.Basic

/-!
# Quil and pyQuil

Both write an operation as one of Quil's gates with modifiers. Quil has no square root of X.

* `Quil.gate?`: the gate and modifiers of an operation;
* `Quil.emit`: a Quil program;
* `Quil.emitScript`: a script that builds the program `p`.
-/

namespace CircuitGrid

namespace Quil

/-- A Quil gate with its modifiers. -/
structure Modified where
  name : String
  dagger : Bool := false
  /-- The first wire controls the gate. -/
  controlled : Bool := false
deriving Repr, DecidableEq

/-- The gate and modifiers of an operation, if there are any. -/
def gate? : Op → Option Modified
  | .x => some ⟨"X", false, false⟩
  | .y => some ⟨"Y", false, false⟩
  | .z => some ⟨"Z", false, false⟩
  | .h => some ⟨"H", false, false⟩
  | .s => some ⟨"S", false, false⟩
  | .sdg => some ⟨"S", true, false⟩
  | .t => some ⟨"T", false, false⟩
  | .tdg => some ⟨"T", true, false⟩
  | .rx => some ⟨"RX", false, false⟩
  | .ry => some ⟨"RY", false, false⟩
  | .rz => some ⟨"RZ", false, false⟩
  | .phase => some ⟨"PHASE", false, false⟩
  | .cx => some ⟨"CNOT", false, false⟩
  | .cy => some ⟨"Y", false, true⟩
  | .cz => some ⟨"CZ", false, false⟩
  | .ch => some ⟨"H", false, true⟩
  | .cs => some ⟨"S", false, true⟩
  | .csdg => some ⟨"S", true, true⟩
  | .ct => some ⟨"T", false, true⟩
  | .ctdg => some ⟨"T", true, true⟩
  | .crx => some ⟨"RX", false, true⟩
  | .cry => some ⟨"RY", false, true⟩
  | .crz => some ⟨"RZ", false, true⟩
  | .cphase => some ⟨"CPHASE", false, false⟩
  | .ccx => some ⟨"CCNOT", false, false⟩
  | .swap => some ⟨"SWAP", false, false⟩
  | .cswap => some ⟨"CSWAP", false, false⟩
  | .sx | .sxdg | .csx => none

/-- The line of an instruction in Quil. -/
def line (gate : Modified) (i : Instruction) : String :=
  let angles := if i.params.isEmpty then "" else "(" ++ Angle.writeAll "pi" i.params ++ ")"
  (if gate.controlled then "CONTROLLED " else "") ++ (if gate.dagger then "DAGGER " else "") ++
    gate.name ++ angles ++ String.join (i.wires.map fun wire => s!" {wire}")

/-- The lines of an instruction in Quil. -/
def lines (i : Instruction) : Except (Stop EmitError) (List String) :=
  match gate? i.op with
  | none => .error (.fault (.unsupported .quil i.op))
  | some gate => .ok (i.commentLines "# " ++ [line gate i])

/-- A Quil program. -/
def emit (p : Program) : Except (Stop EmitError) String := do
  return unlines (← instructionLines lines p.instructions)

/-- The call for an instruction in a script: angles come before wires, and the control of a
controlled gate is added at the end. -/
def call (gate : Modified) (i : Instruction) : String :=
  let (control, targets) := match i.wires with
    | first :: rest => if gate.controlled then (some first, rest) else (none, i.wires)
    | [] => (none, [])
  let arguments := i.params.map (Angle.write "np.pi") ++ wireNumbers targets
  gate.name ++ "(" ++ ", ".intercalate arguments ++ ")" ++
    (if gate.dagger then ".dagger()" else "") ++
    (match control with
      | none => ""
      | some wire => s!".controlled({wire})")

/-- The lines of an instruction in a script. -/
def scriptLines (i : Instruction) : Except (Stop EmitError) (List String) :=
  match gate? i.op with
  | none => .error (.fault (.unsupported .pyquil i.op))
  | some gate => .ok (i.commentLines "# " ++ ["p += " ++ call gate i])

/-- A script that builds the program `p`. -/
def emitScript (p : Program) : Except (Stop EmitError) String := do
  let lines ← instructionLines scriptLines p.instructions
  return unlines (["from pyquil import Program", "from pyquil.gates import *",
    "import numpy as np", "", "p = Program()"] ++ lines)

end Quil

end CircuitGrid
