import CircuitGrid.Angle
import CircuitGrid.Dialect.Basic

/-!
# Amazon Braket scripts

Controlled S and T turns are written as `cphaseshift`. Braket has no controlled Hadamard gate, no
controlled square root of X and no controlled rotations.

* `Braket.method?`: the method and angle for an instruction;
* `Braket.emit`: a script that builds `circuit`.
-/

namespace CircuitGrid

namespace Braket

/-- The method for an operation, and its angle where that is fixed or taken from the
instruction. -/
def method? (i : Instruction) : Option (String × Option Float) :=
  let angle := i.params.head?
  match i.op with
  | .x => some ("x", none)
  | .y => some ("y", none)
  | .z => some ("z", none)
  | .h => some ("h", none)
  | .s => some ("s", none)
  | .sdg => some ("si", none)
  | .t => some ("t", none)
  | .tdg => some ("ti", none)
  | .sx => some ("v", none)
  | .sxdg => some ("vi", none)
  | .rx => some ("rx", angle)
  | .ry => some ("ry", angle)
  | .rz => some ("rz", angle)
  | .phase => some ("phaseshift", angle)
  | .cx => some ("cnot", none)
  | .cy => some ("cy", none)
  | .cz => some ("cz", none)
  | .cs => some ("cphaseshift", some Angle.halfPi)
  | .csdg => some ("cphaseshift", some (-Angle.halfPi))
  | .ct => some ("cphaseshift", some Angle.quarterPi)
  | .ctdg => some ("cphaseshift", some (-Angle.quarterPi))
  | .cphase => some ("cphaseshift", angle)
  | .ccx => some ("ccnot", none)
  | .swap => some ("swap", none)
  | .cswap => some ("cswap", none)
  | .ch | .csx | .crx | .cry | .crz => none

/-- The lines of an instruction: wires come before the angle. -/
def lines (i : Instruction) : Except (Stop EmitError) (List String) :=
  match method? i with
  | none => .error (.fault (.unsupported .braket i.op))
  | some (method, angle) =>
    let arguments := wireNumbers i.wires ++ (angle.map (Angle.write "np.pi")).toList
    .ok (i.commentLines "# " ++
      ["circuit." ++ method ++ "(" ++ ", ".intercalate arguments ++ ")"])

/-- A script that builds `circuit`. -/
def emit (p : Program) : Except (Stop EmitError) String := do
  let body ← instructionLines lines p.instructions
  return unlines (["from braket.circuits import Circuit", "import numpy as np", "",
    "circuit = Circuit()"] ++ body)

end Braket

end CircuitGrid
