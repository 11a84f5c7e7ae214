import CircuitGrid.Angle
import CircuitGrid.Dialect.Basic

/-!
# QuEST programs

A C program prepares the state in a register named `qubits`. QuEST has no square root of X, no
controlled Hadamard gate and no controlled swap.

* `Quest.callOf`: the call for an instruction;
* `Quest.emit`: the program.
-/

namespace CircuitGrid

namespace Quest

/-- The function for an operation, and its angle where that is fixed or taken from the
instruction. -/
def function? (i : Instruction) : Option (String × Option Float) :=
  let angle := i.params.head?
  match i.op with
  | .x => some ("pauliX", none)
  | .y => some ("pauliY", none)
  | .z => some ("pauliZ", none)
  | .h => some ("hadamard", none)
  | .s => some ("sGate", none)
  | .t => some ("tGate", none)
  | .sdg => some ("phaseShift", some (-Angle.halfPi))
  | .tdg => some ("phaseShift", some (-Angle.quarterPi))
  | .rx => some ("rotateX", angle)
  | .ry => some ("rotateY", angle)
  | .rz => some ("rotateZ", angle)
  | .phase => some ("phaseShift", angle)
  | .cx => some ("controlledNot", none)
  | .cy => some ("controlledPauliY", none)
  | .cz => some ("controlledPhaseFlip", none)
  | .cs => some ("controlledPhaseShift", some Angle.halfPi)
  | .csdg => some ("controlledPhaseShift", some (-Angle.halfPi))
  | .ct => some ("controlledPhaseShift", some Angle.quarterPi)
  | .ctdg => some ("controlledPhaseShift", some (-Angle.quarterPi))
  | .crx => some ("controlledRotateX", angle)
  | .cry => some ("controlledRotateY", angle)
  | .crz => some ("controlledRotateZ", angle)
  | .cphase => some ("controlledPhaseShift", angle)
  | .swap => some ("swapGate", none)
  | .ccx | .sx | .sxdg | .csx | .ch | .cswap => none

/-- The call for an instruction. The Toffoli gate has no function of its own and is written as a
NOT with two controls, which needs exactly three wires. -/
def callOf (i : Instruction) : Except (Stop EmitError) String :=
  match i.op, i.wires with
  | .ccx, [a, b, target] =>
    .ok ("multiControlledMultiQubitNot(qubits, (int[])\x7b" ++ s!"{a}, {b}" ++
      "\x7d, 2, (int[])\x7b" ++ toString target ++ "\x7d, 1)")
  | _, wires =>
    match function? i with
    | none => .error (.fault (.unsupported .quest i.op))
    | some (function, angle) =>
      let arguments := "qubits" :: wireNumbers wires ++ (angle.map (Angle.write "M_PI")).toList
      .ok (function ++ "(" ++ ", ".intercalate arguments ++ ")")

/-- The lines of an instruction. -/
def lines (i : Instruction) : Except (Stop EmitError) (List String) := do
  let call ← callOf i
  return i.commentLines "    // " ++ ["    " ++ call ++ ";"]

/-- The program. -/
def emit (p : Program) : Except (Stop EmitError) String := do
  let body ← instructionLines lines p.instructions
  return unlines (["#include <math.h>", "#include \"QuEST.h\"", "", "int main(void) \x7b",
    "    QuESTEnv env = createQuESTEnv();", s!"    Qureg qubits = createQureg({p.wires}, env);",
    "    initZeroState(qubits);", ""] ++ body ++
    ["", "    destroyQureg(qubits, env);", "    destroyQuESTEnv(env);", "    return 0;", "\x7d"])

end Quest

end CircuitGrid
