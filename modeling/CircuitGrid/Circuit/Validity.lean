import CircuitGrid.Circuit.Error

/-!
# Well-formed circuits

A circuit is checked column by column and top to bottom: slots and wires must agree, every gate must
cover its own row and stay inside the circuit, no row is covered twice, matrices are unitary and of
the right size, and nested circuits fit into their gates and are well formed themselves.

* `Circuit.validate`: the first fault of a circuit, if any, unless checking it panics;
* `Circuit.ofColumns`: a circuit from its columns, if they are well formed.
-/

namespace CircuitGrid

/-- Marks the rows of a gate in a column as covered. -/
def coverRows (wires column : Nat) (gate : String) :
    List Nat → List Nat → Except (Stop CircuitError) (List Nat)
  | covered, [] => .ok covered
  | covered, row :: rest =>
    if wires ≤ row then .error (.fault (.wireOutOfRange row wires))
    else if covered.contains row then .error (.fault (.overlap gate column row))
    else coverRows wires column gate (row :: covered) rest

/-- The side of the matrix of a gate, a word of 64 bits: beyond the word it starts again from
one. -/
def matrixSide (height : Nat) : Nat := Nat.pow 2 (height % 64)

/-- The number of entries of the matrix of a gate, counted in a word of 64 bits. -/
def matrixEntries (height : Nat) : Nat := matrixSide height * matrixSide height % wordLimit

/-- Checks the matrix of a gate of the given height. -/
def checkMatrix (gate : String) (height : Nat) : Option Matrix → Except (Stop CircuitError) Unit
  | none => .ok ()
  | some m =>
    let side := matrixSide height
    if m.length ≠ matrixEntries height then
      .error (.fault (.invalidMatrix gate (.size side height m.length)))
    else
      match m.unitary? side with
      | none => .error .panic
      | some unitary =>
        if unitary then .ok () else .error (.fault (.invalidMatrix gate .notUnitary))

mutual

/-- Checks a gate by itself: its matrix and its circuit. -/
def checkGate : Gate → Except (Stop CircuitError) Unit
  | ⟨id, _, role, height, _, matrix, _, _, _⟩ => do
    checkMatrix id height matrix
    match role with
    | .nested body =>
      if height < body.wires then throw (.fault (.nestedTooTall id height body.wires))
      else checkCircuit body
    | _ => pure ()
termination_by structural g => g

/-- Checks a circuit. -/
def checkCircuit : Grid Gate → Except (Stop CircuitError) Unit
  | ⟨wires, columns⟩ => checkColumns wires 0 columns
termination_by structural c => c

/-- Checks columns, of which the first has the given index. -/
def checkColumns (wires : Nat) :
    Nat → List (List (Option Gate)) → Except (Stop CircuitError) Unit
  | _, [] => .ok ()
  | index, column :: rest => do
    if column.length ≠ wires then throw (.fault (.columnLength index wires column.length))
    else
      checkCells wires index [] 0 column
      checkColumns wires (index + 1) rest
termination_by structural _ columns => columns

/-- Checks the cells of a column from a row downwards, some rows being covered already. -/
def checkCells (wires column : Nat) :
    List Nat → Nat → List (Option Gate) → Except (Stop CircuitError) Unit
  | _, _, [] => .ok ()
  | covered, row, none :: rest => checkCells wires column covered (row + 1) rest
  | covered, row, some gate :: rest => do
    match gate.listRows wires row with
    | none => throw .panic
    | some rows =>
      if rows.contains row then
        let covered ← coverRows wires column gate.id covered rows
        checkGate gate
        checkCells wires column covered (row + 1) rest
      else throw (.fault (.stray gate.id column row))
termination_by structural _ _ cells => cells

end

namespace Circuit

/-- Reports the first fault of a circuit. -/
def validate (c : Circuit) : Except (Stop CircuitError) Unit := checkCircuit c

/-- The circuit with the given columns, if it is well formed. -/
def ofColumns (wires : Nat) (columns : List (Column Gate)) :
    Except (Stop CircuitError) Circuit := do
  checkCircuit ⟨wires, columns⟩
  return ⟨wires, columns⟩

end Circuit

end CircuitGrid
