import CircuitGrid.Gate
import CircuitGrid.Json.Record
import CircuitGrid.Json.Value

/-!
# The parts of gates as JSON

Operations, axes and recognised gates are written as their names, wires as numbers of 32 bits,
placeholders and exports as records.

* `Op.read`, `Axis.read`, `Entangler.read`: names;
* `readWire`: wires;
* `Placeholder.read`, `Placeholder.toJson`, `Export.read`, `Export.toJson`: records.
-/

namespace CircuitGrid

open Reader (text float nat natBelow optional list pair record choice)

/-- Reads the name of an operation. -/
def Op.read (depth : Nat) : Reader Op := choice depth (Op.all.map fun op => (op.name, op))

namespace Axis

/-- The name of an axis. -/
def name : Axis → String
  | x => "X"
  | y => "Y"
  | z => "Z"

/-- Reads the name of an axis. -/
def read (depth : Nat) : Reader Axis := choice depth [("X", x), ("Y", y), ("Z", z)]

end Axis

namespace Entangler

/-- The name of a recognised gate. -/
def name (kind : Entangler) : String := kind.op.name

/-- Reads the name of a recognised gate. -/
def read (depth : Nat) : Reader Entangler := choice depth [("cx", cx), ("cz", cz)]

end Entangler

/-- Reads a wire. -/
def readWire : Reader Nat := natBelow wireLimit

namespace Placeholder

/-- The fields of a placeholder. -/
def shape (depth : Nat) :
    Record (Option Entangler × Option Nat × Option Nat × Option (Nat × Nat)) :=
  (Record.one "kind" (Entangler.read depth)).and <|
  (Record.one "source" readWire).and <|
  (Record.one "target" readWire).and <|
  Record.one "link" (pair depth fun _ => readWire)

/-- Reads a placeholder. -/
def read (depth : Nat) : Reader Placeholder :=
  record depth shape fun (kind, source, target, link) => do
    return { kind := ← kind, source := ← source, target := ← target, link := ← link }

/-- A placeholder as JSON. -/
def toJson (p : Placeholder) : Json :=
  .object [("kind", .text p.kind.name), ("source", .nat p.source), ("target", .nat p.target),
    ("link", .list [.nat p.link.1, .nat p.link.2])]

end Placeholder

namespace Export

/-- The fields of an export. -/
def shape (depth : Nat) :
    Record (Option Op × Option (Option Op) × Option (List Float) × Option (List Float)) :=
  (Record.one "uncontrolled" (Op.read depth)).and <|
  (Record.one "controlled" (optional (Op.read depth))).and <|
  (Record.one "params" (list depth fun _ => float)).and <|
  Record.one "controlled_params" (list depth fun _ => float)

/-- Reads an export, in which only the uncontrolled operation is required. -/
def read (depth : Nat) : Reader Export :=
  record depth shape fun (uncontrolled, controlled, params, controlledParams) => do
    return {
      uncontrolled := ← uncontrolled
      controlled := controlled.join
      params := params.getD []
      controlledParams := controlledParams.getD [] }

/-- An export as JSON; what is missing or empty is left out. -/
def toJson (e : Export) : Json :=
  .object ([("uncontrolled", .text e.uncontrolled.name)] ++
    Json.optional "controlled" (fun op => .text op.name) e.controlled ++
    Json.nonempty "params" .float e.params ++
    Json.nonempty "controlled_params" .float e.controlledParams)

end Export

end CircuitGrid
