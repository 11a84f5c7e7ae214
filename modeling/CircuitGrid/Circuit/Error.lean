import CircuitGrid.Gate

/-!
# What can be wrong with a circuit

* `CircuitError`: the faults of circuits and of their descriptions, one constructor per cause;
* `CircuitError.message`: their wording.
-/

namespace CircuitGrid

/-- What can be wrong with the matrix of a gate. -/
inductive MatrixFault where
  /-- The number of entries does not fit the height. -/
  | size (side height entries : Nat)
  | notUnitary
  /-- The number of entries is not the square of a power of two. -/
  | notSquare (entries : Nat)
deriving Repr, DecidableEq

namespace MatrixFault

/-- The wording of a fault. -/
def message : MatrixFault → String
  | size side height entries =>
    s!"expected {side}x{side} entries for height {height}, got {entries}"
  | notUnitary => "matrix is not unitary"
  | notSquare entries => s!"{entries} entries is not a square power-of-two matrix"

end MatrixFault

/-- A fault of a circuit or of its description. -/
inductive CircuitError where
  /-- A wire that the circuit does not have. -/
  | wireOutOfRange (wire wires : Nat)
  /-- A column whose slots are not one per wire. -/
  | columnLength (column expected got : Nat)
  /-- Two gates of a column cover the same row. -/
  | overlap (gate : String) (column row : Nat)
  /-- An id that is neither built in nor defined. -/
  | unknownGate (id : String)
  | invalidMatrix (gate : String) (fault : MatrixFault)
  /-- A gate is put into a row that it does not cover. -/
  | misplaced (gate : String) (expected row : Nat)
  /-- A gate is stored in a row that it does not cover. -/
  | stray (gate : String) (column row : Nat)
  /-- A nested gate is less tall than its circuit. -/
  | nestedTooTall (gate : String) (height wires : Nat)
  /-- A definition says nothing about its gate. -/
  | emptyDefinition (id : String)
  /-- A gate has nothing that a definition could hold. -/
  | unwritable (gate : String)
  /-- A gate has a role that no definition can give. -/
  | unwritableRole (gate role : String)
deriving Repr, DecidableEq

namespace CircuitError

/-- The wording of a fault. -/
def message : CircuitError → String
  | wireOutOfRange wire wires => s!"Wire {wire} out of range for a document with {wires} wires"
  | columnLength column expected got => s!"Column {column} has {got} slots, expected {expected}"
  | overlap gate column row =>
    s!"Gate '{gate}' overlaps another gate at column {column}, row {row}"
  | unknownGate id => s!"Unknown gate id '{id}'"
  | invalidMatrix gate fault => s!"Invalid matrix for gate '{gate}': {fault.message}"
  | misplaced gate expected row =>
    s!"Invalid document: gate '{gate}' must be placed at row {expected}, not {row}"
  | stray gate column row =>
    s!"Invalid document: gate '{gate}' at column {column} is stored at row {row} outside its span"
  | nestedTooTall gate height wires =>
    s!"Invalid document: nested gate '{gate}' has height {height} " ++
      s!"but its circuit uses {wires} wires"
  | emptyDefinition id =>
    s!"Invalid document: custom gate '{id}' defines none of circuit, matrix, export or nonlocal"
  | unwritable gate =>
    s!"Invalid document: custom gate '{gate}' has no matrix, export or circuit to serialize"
  | unwritableRole gate role =>
    s!"Invalid document: custom gate '{gate}' with role {role} cannot be serialized"

end CircuitError

end CircuitGrid
