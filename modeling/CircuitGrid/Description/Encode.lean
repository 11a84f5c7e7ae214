import CircuitGrid.Catalog
import CircuitGrid.Circuit.Error
import CircuitGrid.Description.Basic
import CircuitGrid.Gate.Text

/-!
# From circuits to descriptions

Every gate that is not built in is defined where it is first used, once for each id and each
circuit. Empty cells at the end of a column are left out and the number of wires is always given.

* `Circuit.encode`: the description of a circuit.
-/

namespace CircuitGrid

/-- Whether a gate is the built-in one of its id. -/
def isBuiltIn (gate : Gate) : Bool := (Catalog.find? gate.id).any (· == gate)

/-- A column as cells, without the empty ones at its end. -/
def cellsOf (column : Column Gate) : List Cell :=
  let cells := column.map fun
    | none => Cell.empty
    | some gate => Cell.gate gate.id
  (cells.reverse.dropWhile (· = .empty)).reverse

/-- The name of a role that no definition can give. -/
def Role.label {κ : Type} : Role κ → String
  | .unitary => "Unitary"
  | .control => "Control"
  | .antiControl => "AntiControl"
  | .parity axis => s!"ParityControl({axis.name})"
  | .swapHalf => "SwapHalf"
  | .nested _ => "Nested"
  | .nonLocal _ => "NonLocal"

mutual

/-- The definition of a gate. -/
def Gate.encode : Gate → Except CircuitError Definition
  | ⟨id, title, role, height, exports, matrix, _, _, _⟩ =>
    let definition : Definition := ⟨id, some title, none, none, none, none, exports, none⟩
    match role with
    | .nonLocal payload =>
      .ok { definition with symbol := some payload.kind.symbol, nonLocal := some payload }
    | .nested body => do
      let circuit ← Grid.encode body
      return { definition with circuit := some circuit, height := some height }
    | .unitary =>
      match matrix, exports with
      | some m, _ => .ok { definition with matrix := some (m.map fun z => (z.re, z.im)) }
      | none, some _ => .ok { definition with height := some height }
      | none, none => .error (.unwritable id)
    | other => .error (.unwritableRole id other.label)
termination_by structural g => g

/-- The description of a circuit. -/
def Grid.encode : Grid Gate → Except CircuitError Description
  | ⟨wires, columns⟩ => do
    let gates ← Gate.defineColumns [] columns
    return ⟨columns.map cellsOf, gates, some wires⟩
termination_by structural c => c

/-- Adds definitions for the gates of columns. -/
def Gate.defineColumns (defined : List Definition) :
    List (List (Option Gate)) → Except CircuitError (List Definition)
  | [] => .ok defined
  | column :: rest => do
    let defined ← Gate.defineCells defined column
    Gate.defineColumns defined rest
termination_by structural columns => columns

/-- Adds definitions for the gates of cells. -/
def Gate.defineCells (defined : List Definition) :
    List (Option Gate) → Except CircuitError (List Definition)
  | [] => .ok defined
  | none :: rest => Gate.defineCells defined rest
  | some gate :: rest => do
    if isBuiltIn gate || defined.any (·.id == gate.id) then Gate.defineCells defined rest
    else
      let definition ← Gate.encode gate
      Gate.defineCells (defined ++ [definition]) rest
termination_by structural cells => cells

end

/-- The description of a circuit. -/
def Circuit.encode (c : Circuit) : Except CircuitError Description := Grid.encode c

end CircuitGrid
