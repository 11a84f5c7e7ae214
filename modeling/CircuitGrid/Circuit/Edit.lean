import CircuitGrid.Circuit.Error

/-!
# Building circuits step by step

* `Circuit.place`, `Circuit.clear`: putting a gate into a slot and taking it out again;
* `Circuit.appendWires`, `Circuit.pushColumn`: more wires below, another column at the end.

Where memory runs out in that, the program panics.
-/

namespace CircuitGrid

/-- Whether a gate of the column covers a row. -/
def Column.covers (column : Column Gate) (row : Nat) : Bool :=
  (Column.placed column).any fun (top, gate) => (gate.rowsAt top).contains row

namespace Circuit

/-- At least `count` columns, the missing ones blank. -/
def growTo (c : Circuit) (count : Nat) : Circuit :=
  { c with columns := c.columns ++
      List.replicate (count - c.columns.length) (List.replicate c.wires none) }

/-- Sets a slot that exists. -/
def setCell (c : Circuit) (column row : Nat) (cell : Option Gate) : Circuit :=
  { c with columns := c.columns.modify column (·.set row cell) }

/-- Whether a slot can be reached: it is there, or columns up to it can be held. -/
def canReach (c : Circuit) (column row : Nat) : Bool :=
  match c.columns[column]? with
  | some slots => row < slots.length
  | none => Memory.machine.holdsColumn c.wires

/-- Places a gate with its top cell in a slot, creating columns as needed. The gate has to stay
inside the circuit and off the rows of other gates. A gate without rows is refused with its first
row, which panics. -/
def place (c : Circuit) (column row : Nat) (gate : Gate) : Except (Stop CircuitError) Circuit :=
  match gate.listRows c.wires row with
  | none => .error .panic
  | some rows =>
    match rows.find? (c.wires ≤ ·) with
    | some outside => .error (.fault (.wireOutOfRange outside c.wires))
    | none =>
      if rows.contains row then
        match rows.find? (Column.covers (c.column column)) with
        | some taken => .error (.fault (.overlap gate.id column taken))
        | none =>
          if c.canReach column row then .ok ((c.growTo (column + 1)).setCell column row (some gate))
          else .error .panic
      else
        match rows with
        | [] => .error .panic
        | first :: _ => .error (.fault (.misplaced gate.id first row))

/-- Takes the gate out of a slot. -/
def clear (c : Circuit) (column row : Nat) : Option Gate × Circuit :=
  (c.cell? column row, c.setCell column row none)

/-- The circuit on another number of wires: slots are added below the others, or cut there. -/
def resized (c : Circuit) (wires : Nat) : Circuit :=
  ⟨wires, c.columns.map fun column => Column.padTo column wires⟩

/-- Appends wires below the others. Their number is a word: where it wraps around, there are fewer
wires than before, and the columns are cut. No result means that a column cannot be held. -/
def appendWires (c : Circuit) (count : Nat) : Option Circuit :=
  let wires := (c.wires + count) % wordLimit
  if c.columns.isEmpty || Memory.machine.holdsColumn wires then some (c.resized wires) else none

/-- Appends a blank column, unless it cannot be held. -/
def pushColumn (c : Circuit) : Option Circuit :=
  if Memory.machine.holdsColumn c.wires then some (c.growTo (c.columns.length + 1)) else none

end Circuit

end CircuitGrid
