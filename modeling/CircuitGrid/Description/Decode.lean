import CircuitGrid.Catalog
import CircuitGrid.Circuit.Validity
import CircuitGrid.Description.Basic

/-!
# From descriptions to circuits

Definitions are taken in order, each in the scope of those before it and of the surrounding circuit;
a later one hides an earlier one of the same id and a built-in gate. Without a given number of wires
a circuit is as tall as its lowest cell.

* `Scope`: the gates that are defined;
* `Sheet.decodeIn`: the circuit of a description in a memory;
* `Description.decode`: the circuit of a description.
-/

namespace CircuitGrid

/-- The gates defined so far, the latest first. -/
abbrev Scope : Type := List (String × Gate)

namespace Scope

/-- The gate with an id: a defined one or else a built-in one. -/
def resolve (scope : Scope) (id : String) : Except (Stop CircuitError) Gate :=
  match scope.lookup id with
  | some gate => .ok gate
  | none =>
    match Catalog.find? id with
    | some gate => .ok gate
    | none => .error (.fault (.unknownGate id))

end Scope

/-- The gates of a column of cells, from a given row downwards. The rows of every gate are listed,
so they have to be held. -/
def resolveCells (m : Memory) (scope : Scope) :
    Nat → List Cell → Except (Stop CircuitError) (List (Option Gate))
  | _, [] => .ok []
  | row, .empty :: rest => do return none :: (← resolveCells m scope (row + 1) rest)
  | row, .gate id :: rest => do
    let gate ← scope.resolve id
    if gate.rowsHeld m row then return some gate :: (← resolveCells m scope (row + 1) rest)
    else throw .panic

/-- The gates of columns of cells. -/
def resolveColumns (m : Memory) (scope : Scope) :
    List (List Cell) → Except (Stop CircuitError) (List (Column Gate))
  | [] => .ok []
  | cells :: rest => do
    let column ← resolveCells m scope 0 cells
    return column :: (← resolveColumns m scope rest)

/-- The number of rows that a column needs: its slots, and all rows its gates cover. -/
def Column.reach (column : Column Gate) : Nat :=
  (Column.placed column).foldl
    (fun reach (row, gate) => max reach (((gate.wordRows row).max?.getD row) + 1)) column.length

/-- The number of rows that all columns need. -/
def reachOf (columns : List (Column Gate)) : Nat :=
  columns.foldl (fun reach column => max reach column.reach) 0

/-- Lays out columns on a number of wires: the given one, or as many as are needed. -/
def layOut (m : Memory) (columns : List (Column Gate)) (wires : Option Nat) :
    Except (Stop CircuitError) Circuit :=
  let reach := reachOf columns
  let wires := wires.getD reach
  if wires < reach then .error (.fault (.wireOutOfRange (reach - 1) wires))
  else if columns.isEmpty || m.holdsColumn wires then
    Circuit.ofColumns wires (columns.map fun column => Column.padTo column wires)
  else .error .panic

/-- The gate with a given matrix; its height follows from the number of entries. -/
def matrixGate (id title : String) (entries : List (Float × Float)) :
    Except (Stop CircuitError) Gate :=
  match Matrix.wires? entries.length with
  | none => .error (.fault (.invalidMatrix id (.notSquare entries.length)))
  | some wires =>
    let matrix : Matrix := entries.map fun (re, im) => ⟨re, im⟩
    .ok ({ Gate.basic id title with matrix := some matrix }.withHeight wires)

/-- The nested gate for a circuit; a given height counts if the circuit fits into it. -/
def nestedGate (id title : String) (height : Option Nat) (body : Circuit) : Gate :=
  let gate := Gate.nested id title body
  match height with
  | some h => if gate.height ≤ h then gate.withHeight h else gate
  | none => gate

mutual

/-- The gate of a definition. -/
def Definition.decodeIn (m : Memory) (scope : Scope) :
    Definition → Except (Stop CircuitError) Gate
  | ⟨id, name, _, height, circuit, matrix, exports, nonLocal⟩ => do
    let title := name.getD id
    let gate : Gate ← match nonLocal with
      | some payload =>
        let gate := Gate.nonLocal id payload
        pure { gate with title := name.getD gate.title }
      | none =>
        match circuit with
        | some body => do
          pure (nestedGate id title height (← Sheet.decodeIn m scope body))
        | none =>
          match matrix, exports with
          | some entries, _ => matrixGate id title entries
          | none, some _ => pure ((Gate.basic id title).withHeight (height.getD 1))
          | none, none => throw (.fault (.emptyDefinition id))
    return { gate with exports := exports.or gate.exports }
termination_by structural d => d

/-- The circuit of a description inside a scope. -/
def Sheet.decodeIn (m : Memory) (outer : Scope) :
    Sheet Definition → Except (Stop CircuitError) Circuit
  | ⟨columns, gates, wires⟩ => do
    let scope ← Definition.decodeAllIn m outer gates
    layOut m (← resolveColumns m scope columns) wires
termination_by structural d => d

/-- The scope after a list of definitions. -/
def Definition.decodeAllIn (m : Memory) (scope : Scope) :
    List Definition → Except (Stop CircuitError) Scope
  | [] => .ok scope
  | definition :: rest => do
    let gate ← Definition.decodeIn m scope definition
    Definition.decodeAllIn m ((definition.id, gate) :: scope) rest
termination_by structural definitions => definitions

end

/-- The gate of a definition. -/
abbrev Definition.decode (scope : Scope) (d : Definition) : Except (Stop CircuitError) Gate :=
  d.decodeIn .unlimited scope

/-- The circuit of a description inside a scope. -/
abbrev Sheet.decode (outer : Scope) (d : Description) : Except (Stop CircuitError) Circuit :=
  d.decodeIn .unlimited outer

/-- The circuit of a description by itself. -/
def Description.decode (d : Description) : Except (Stop CircuitError) Circuit := Sheet.decode [] d

end CircuitGrid
