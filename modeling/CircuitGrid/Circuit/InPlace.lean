import CircuitGrid.Circuit.Edit

/-!
# Editing circuits in place

An edit in place changes the circuit bit by bit. Where it fails or panics halfway, what it has
changed so far stays changed. Placing a gate makes all its checks before it appends the first
column; appending wires counts them before it asks for their slots.

* `InPlace`: steps on a circuit in place;
* `InPlace.place`, `InPlace.clear`: putting a gate into a slot and taking it out again;
* `InPlace.appendWires`, `InPlace.pushColumn`: more wires below, another column at the end.
-/

namespace CircuitGrid

/-- Steps on a circuit that is there. What they have changed when one of them fails stays. -/
abbrev InPlace : Type → Type := ExceptT (Stop CircuitError) (StateM Circuit)

namespace InPlace

/-- Runs steps on a circuit, which is there afterwards whether they fail or not. -/
def on {α : Type} (steps : InPlace α) (c : Circuit) : Except (Stop CircuitError) α × Circuit :=
  StateT.run (ExceptT.run steps) c

/-- A blank column at the end. -/
def withBlank (c : Circuit) : Circuit :=
  { c with columns := c.columns ++ [List.replicate c.wires none] }

/-- Appends a blank column and gives its index. -/
def pushColumn : InPlace Nat := do
  unless Memory.machine.holdsColumn (← get).wires do throw .panic
  modify withBlank
  return (← get).columns.length - 1

/-- Appends blank columns one by one. -/
def pushColumns : Nat → InPlace Unit
  | 0 => pure ()
  | missing + 1 => do
    discard pushColumn
    pushColumns missing

/-- Sets a slot, creating columns as needed. -/
def putCell (column row : Nat) (cell : Option Gate) : InPlace Unit := do
  pushColumns (column + 1 - (← get).columns.length)
  unless row < ((← get).column column).length do throw .panic
  modify (·.setCell column row cell)

/-- Places a gate with its top cell in a slot, creating columns as needed. -/
def place (column row : Nat) (gate : Gate) : InPlace Unit := do
  let wires := (← get).wires
  match gate.listRows wires row with
  | none => throw .panic
  | some rows =>
    if let some outside := rows.find? (wires ≤ ·) then
      throw (.fault (.wireOutOfRange outside wires))
    unless rows.contains row do
      match rows with
      | [] => throw .panic
      | first :: _ => throw (.fault (.misplaced gate.id first row))
    -- a column that is yet to be created has no gates to overlap with
    if let some slots := (← get).columns[column]? then
      if let some taken := rows.find? (Column.covers slots) then
        throw (.fault (.overlap gate.id column taken))
    putCell column row (some gate)

/-- Takes the gate out of a slot. -/
def clear (column row : Nat) : InPlace (Option Gate) := do
  let gate := (← get).cell? column row
  modify (·.setCell column row none)
  return gate

/-- Appends wires below the others and gives the first of them and the first that is none. -/
def appendWires (count : Nat) : InPlace (Nat × Nat) := do
  let first := (← get).wires
  modify fun c => { c with wires := (first + count) % wordLimit }
  let past := (← get).wires
  unless (← get).columns.isEmpty || Memory.machine.holdsColumn past do throw .panic
  modify (·.resized past)
  return (first, past)

end InPlace

end CircuitGrid
