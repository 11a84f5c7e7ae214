import CircuitGrid.Description.Decode
import CircuitGrid.Description.Encode

/-!
# Circuits as JSON text

A cell is an id, or any number below 256 for an empty slot, which is written as `1`.

* `Description.read`, `Description.toJson`: descriptions as JSON;
* `Circuit.ofTextIn`, `Circuit.ofText`: the circuit in a text, in a memory and without limits;
* `Circuit.toText`, `Circuit.toIndentedText`: the texts of a circuit.
-/

namespace CircuitGrid

open Reader (float nat optional list pair record)

/-- Reads a cell. -/
def Cell.read (depth : Nat) : Reader Cell := do
  match ← Reader.anyValue depth with
  | .nat n => if n < 256 then return .empty else throw .mismatched
  | .text id => return .gate id
  | .other => throw .mismatched

/-- The fields of a sheet whose definitions are read with `definition`. -/
def Sheet.shape (definition : Nat → Reader Definition) (depth : Nat) :
    Record (Option (List (List Cell)) × Option (List Definition) × Option (Option Nat)) :=
  (Record.one "cols" (list depth fun depth => list depth Cell.read)).and <|
  (Record.one "gates" (list depth definition)).and <|
  Record.one "wires" (optional nat)

/-- Reads a sheet whose definitions are read with `definition`. -/
def Sheet.read (definition : Nat → Reader Definition) (depth : Nat) : Reader Description :=
  record depth (Sheet.shape definition) fun (columns, gates, wires) => do
    return { columns := ← columns, gates := gates.getD [], wires := wires.join }

namespace Definition

/-- The fields of a definition whose circuit is read with `circuit`. -/
def shape (circuit : Nat → Reader Description) (depth : Nat) :
    Record (Option String × Option (Option String) × Option (Option String) × Option (Option Nat) ×
      Option (Option Description) × Option (Option (List (Float × Float))) ×
      Option (Option Export) × Option (Option Placeholder)) :=
  (Record.one "id" Reader.text).and <|
  (Record.one "name" (optional Reader.text)).and <|
  (Record.one "symbol" (optional Reader.text)).and <|
  (Record.one "height" (optional nat)).and <|
  (Record.one "circuit" (optional (circuit depth))).and <|
  (Record.one "matrix" (optional (list depth fun depth => pair depth fun _ => float))).and <|
  (Record.one "export" (optional (Export.read depth))).and <|
  Record.one "nonlocal" (optional (Placeholder.read depth))

/-- Reads a definition. Every definition inside another opens further containers, so `maxDepth`
levels are enough. -/
def read : Nat → Nat → Reader Definition
  | 0, _ => throw .malformed
  | levels + 1, depth =>
    record depth (shape (Sheet.read (read levels)))
      fun (id, name, symbol, height, circuit, matrix, exports, nonLocal) => do
        return {
          id := ← id
          name := name.join
          symbol := symbol.join
          height := height.join
          circuit := circuit.join
          matrix := matrix.join
          exports := exports.join
          nonLocal := nonLocal.join }

end Definition

/-- Reads a description. -/
def Description.read : Reader Description := Sheet.read (Definition.read maxDepth) maxDepth

/-- A cell as JSON. -/
def Cell.toJson : Cell → Json
  | .empty => .nat 1
  | .gate id => .text id

mutual

/-- A definition as JSON. -/
def Definition.toJson : Definition → Json
  | ⟨id, name, symbol, height, circuit, matrix, exports, nonLocal⟩ =>
    .object ([("id", .text id)] ++ Json.optional "name" .text name ++
      Json.optional "symbol" .text symbol ++ Json.optional "height" .nat height ++
      (match circuit with
        | none => []
        | some body => [("circuit", Sheet.toJson body)]) ++
      Json.optional "matrix"
        (fun entries => .list (entries.map fun (re, im) => .list [.float re, .float im])) matrix ++
      Json.optional "export" Export.toJson exports ++
      Json.optional "nonlocal" Placeholder.toJson nonLocal)
termination_by structural d => d

/-- A description as JSON. -/
def Sheet.toJson : Sheet Definition → Json
  | ⟨columns, gates, wires⟩ =>
    .object ([("cols", .list (columns.map fun cells => .list (cells.map Cell.toJson)))] ++
      (match gates with
        | [] => []
        | definition :: rest =>
          [("gates", .list (Definition.toJson definition :: Definition.listToJson rest))]) ++
      Json.optional "wires" .nat wires)
termination_by structural d => d

/-- Definitions as JSON. -/
def Definition.listToJson : List Definition → List Json
  | [] => []
  | definition :: rest => Definition.toJson definition :: Definition.listToJson rest
termination_by structural definitions => definitions

end

/-- Why no circuit can be read from a text. -/
inductive TextError where
  /-- The text is no description. -/
  | json (fault : Fault)
  /-- The description has a fault. -/
  | circuit (error : CircuitError)
deriving Repr, DecidableEq

namespace Circuit

/-- The circuit in a text that is read in a memory. -/
def ofTextIn (m : Memory) (source : String) : Except (Stop TextError) Circuit :=
  match Description.read.run source with
  | .error fault => .error (.fault (.json fault))
  | .ok description =>
    match Sheet.decodeIn m [] description with
    | .error stop => .error (stop.map .circuit)
    | .ok circuit => .ok circuit

/-- The circuit in a text. -/
def ofText (source : String) : Except (Stop TextError) Circuit := ofTextIn .unlimited source

/-- The text of a circuit without blanks. -/
def toText (c : Circuit) : Except CircuitError String :=
  (encode c).map fun description => (Sheet.toJson description).compact

/-- The indented text of a circuit. -/
def toIndentedText (c : Circuit) : Except CircuitError String :=
  (encode c).map fun description => (Sheet.toJson description).pretty

end Circuit

end CircuitGrid
