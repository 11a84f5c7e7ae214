import CircuitGrid.Angle
import CircuitGrid.Dialect.Basic

/-!
# Q# operations

Inverse turns are written with `Adjoint`, controlled forms without a name of their own with
`Controlled`. Q# has no square root of X.

* `QSharp.operation?`: the operation on the targets and the number of controls;
* `QSharp.emit`: the operation `Circuit`.
-/

namespace CircuitGrid

namespace QSharp

/-- The operation on the targets, and the number of wires before them that control it. -/
def operation? : Op → Option (String × Nat)
  | .x => some ("X", 0)
  | .y => some ("Y", 0)
  | .z => some ("Z", 0)
  | .h => some ("H", 0)
  | .s => some ("S", 0)
  | .sdg => some ("Adjoint S", 0)
  | .t => some ("T", 0)
  | .tdg => some ("Adjoint T", 0)
  | .rx => some ("Rx", 0)
  | .ry => some ("Ry", 0)
  | .rz => some ("Rz", 0)
  | .phase => some ("R1", 0)
  | .cx => some ("CNOT", 0)
  | .cy => some ("Y", 1)
  | .cz => some ("Z", 1)
  | .ch => some ("H", 1)
  | .cs => some ("S", 1)
  | .csdg => some ("Adjoint S", 1)
  | .ct => some ("T", 1)
  | .ctdg => some ("Adjoint T", 1)
  | .crx => some ("Rx", 1)
  | .cry => some ("Ry", 1)
  | .crz => some ("Rz", 1)
  | .cphase => some ("R1", 1)
  | .ccx => some ("CCNOT", 0)
  | .swap => some ("SWAP", 0)
  | .cswap => some ("SWAP", 1)
  | .sx | .sxdg | .csx => none

/-- The statement that applies an operation. Several arguments of a controlled one form a tuple. -/
def statement (name : String) (controls : Nat) (i : Instruction) : String :=
  let arguments := i.params.map (Angle.write "PI()") ++ registerItems (i.wires.drop controls)
  if controls = 0 then name ++ "(" ++ ", ".intercalate arguments ++ ");"
  else
    let argument := match arguments with
      | [single] => single
      | several => "(" ++ ", ".intercalate several ++ ")"
    "Controlled " ++ name ++ "([" ++ ", ".intercalate (registerItems (i.wires.take controls)) ++
      "], " ++ argument ++ ");"

/-- The lines of an instruction. -/
def lines (i : Instruction) : Except (Stop EmitError) (List String) :=
  match operation? i.op with
  | none => .error (.fault (.unsupported .qsharp i.op))
  | some (name, controls) =>
    if i.wires.length < controls then .error .panic
    else .ok (i.commentLines "        // " ++ ["        " ++ statement name controls i])

/-- The operation `Circuit`. -/
def emit (p : Program) : Except (Stop EmitError) String := do
  let body ← instructionLines lines p.instructions
  return unlines (["namespace QSplit \x7b", "    open Microsoft.Quantum.Intrinsic;",
    "    open Microsoft.Quantum.Math;", "", "    operation Circuit() : Unit \x7b",
    s!"        use q = Qubit[{p.wires}];"] ++ body ++
    ["        ResetAll(q);", "    \x7d", "\x7d"])

end QSharp

end CircuitGrid
