import CircuitGrid.Gate.Text
import CircuitGrid.Program.Basic

/-!
# Programs as JSON

* `Instruction.read`, `Instruction.toJson`: instructions, without the angles and the label that they
  do not have;
* `Program.read`, `Program.toJson`: programs.
-/

namespace CircuitGrid

open Reader (text float nat optional list record)

namespace Instruction

/-- The fields of an instruction. -/
def shape (depth : Nat) :
    Record (Option Op × Option Nat × Option (List Nat) × Option (List Float) ×
      Option (Option String)) :=
  (Record.one "op" (Op.read depth)).and <|
  (Record.one "column" nat).and <|
  (Record.one "wires" (list depth fun _ => readWire)).and <|
  (Record.one "params" (list depth fun _ => float)).and <|
  Record.one "label" (optional text)

/-- Reads an instruction; angles and label may be missing. -/
def read (depth : Nat) : Reader Instruction :=
  record depth shape fun (op, column, wires, params, label) => do
    return {
      op := ← op
      column := ← column
      wires := ← wires
      params := params.getD []
      label := label.join }

/-- An instruction as JSON. -/
def toJson (i : Instruction) : Json :=
  .object ([("op", .text i.op.name), ("column", .nat i.column),
      ("wires", .list (i.wires.map .nat))] ++
    Json.nonempty "params" .float i.params ++ Json.optional "label" .text i.label)

end Instruction

namespace Program

/-- The fields of a program. -/
def shape (depth : Nat) : Record (Option Nat × Option (List Instruction)) :=
  (Record.one "num_wires" nat).and <| Record.one "instructions" (list depth Instruction.read)

/-- Reads a program. -/
def read (depth : Nat) : Reader Program :=
  record depth shape fun (wires, instructions) => do
    return { wires := ← wires, instructions := ← instructions }

/-- A program as JSON. -/
def toJson (p : Program) : Json :=
  .object [("num_wires", .nat p.wires), ("instructions", .list (p.instructions.map (·.toJson)))]

end Program

end CircuitGrid
