import CircuitGrid.Angle
import CircuitGrid.Dialect.Basic

/-!
# OpenQASM

* `OpenQasm.emit2`: OpenQASM 2.0, with controlled S and T turns as `cu1`;
* `OpenQasm.emit3`: OpenQASM 3, with modifiers for what the standard gates lack.
-/

namespace CircuitGrid

namespace OpenQasm

/-- A statement: name, angles if there are any, and wires. -/
def statement (name : String) (params : List Float) (wires : List Nat) : String :=
  let angles := if params.isEmpty then "" else "(" ++ Angle.writeAll "pi" params ++ ")"
  name ++ angles ++ " " ++ ", ".intercalate (registerItems wires) ++ ";"

/-- The name and the angles of an instruction in OpenQASM 2.0. -/
def call2 (i : Instruction) : String × List Float :=
  match i.op with
  | .phase => ("u1", i.params)
  | .cphase => ("cu1", i.params)
  | .cs => ("cu1", [Angle.halfPi])
  | .csdg => ("cu1", [-Angle.halfPi])
  | .ct => ("cu1", [Angle.quarterPi])
  | .ctdg => ("cu1", [-Angle.quarterPi])
  | op => (op.name, i.params)

/-- The name of an operation in OpenQASM 3. -/
def name3 : Op → String
  | .sxdg => "inv @ sx"
  | .phase => "p"
  | .cphase => "cp"
  | .cs => "ctrl @ s"
  | .csdg => "ctrl @ sdg"
  | .ct => "ctrl @ t"
  | .ctdg => "ctrl @ tdg"
  | .csx => "ctrl @ sx"
  | op => op.name

/-- The lines of an instruction in OpenQASM 2.0. -/
def lines2 (i : Instruction) : List String :=
  i.commentLines "// " ++ [statement (call2 i).1 (call2 i).2 i.wires]

/-- The lines of an instruction in OpenQASM 3. -/
def lines3 (i : Instruction) : List String :=
  i.commentLines "// " ++ [statement (name3 i.op) i.params i.wires]

/-- The declaration of the register; a program without wires has none. -/
def register (wires : Nat) (declaration : String) : List String :=
  if wires = 0 then [] else [declaration, ""]

/-- A program in OpenQASM 2.0. -/
def emit2 (p : Program) : String :=
  unlines (["OPENQASM 2.0;", "include \"qelib1.inc\";", ""] ++
    register p.wires s!"qreg q[{p.wires}];" ++ p.instructions.flatMap lines2)

/-- A program in OpenQASM 3. -/
def emit3 (p : Program) : String :=
  unlines (["OPENQASM 3.0;", "include \"stdgates.inc\";", ""] ++
    register p.wires s!"qubit[{p.wires}] q;" ++ p.instructions.flatMap lines3)

end OpenQasm

end CircuitGrid
