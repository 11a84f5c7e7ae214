import CircuitGrid.Matrix
import CircuitGrid.Op

/-!
# Gates and circuits

A circuit is a grid: one slot per wire in every column, each empty or holding the top cell of a
gate. A gate of height `h` covers `h` rows from its top cell downwards; a placeholder for a gate
between two distant wires covers just its two ends. What a cell means to its column is its role.
A nested gate holds a circuit of its own.

* `Grid`, `Gate`, `Circuit`: the three levels, a circuit being a grid of gates;
* `Role`: what a cell means to its column;
* `Export`: how a gate is lowered;
* `Gate.rowsAt`, `Gate.listRows`: the rows that a gate covers, and how they are listed;
* `Column.padTo`: columns on another number of wires;
* `Placeholder`: a two-wire gate between wires of different blocks.
-/

namespace CircuitGrid

/-- An axis of the Bloch sphere. -/
inductive Axis where
  | x | y | z
deriving Repr, DecidableEq

/-- A gate that entangles two wires and that distribution recognises. -/
inductive Entangler where
  /-- X on the second wire when the first one is on. -/
  | cx
  /-- The symmetric phase flip. -/
  | cz
deriving Repr, DecidableEq

/-- A two-wire gate between wires of different blocks, and the pair of extra wires, entangled
beforehand, that are reserved for it. -/
structure Placeholder where
  kind : Entangler
  source : Nat
  target : Nat
  link : Nat × Nat
deriving Repr, DecidableEq

/-- The operations and angles that stand for a gate without and under one control. -/
structure Export where
  uncontrolled : Op
  controlled : Option Op
  params : List Float
  controlledParams : List Float
deriving Repr, BEq

/-- The slots of one column, top to bottom. -/
abbrev Column (γ : Type) : Type := List (Option γ)

/-- A number of wires and columns of slots. In a well-formed grid every column has a slot for
every wire. -/
structure Grid (γ : Type) where
  wires : Nat
  columns : List (List (Option γ))

/-- What a cell means to its column. -/
inductive Role (κ : Type) where
  /-- A payload. -/
  | unitary
  /-- The column acts when this wire is on. -/
  | control
  /-- The column acts when this wire is off. -/
  | antiControl
  /-- The column depends on the parity of this wire along an axis. -/
  | parity (axis : Axis)
  /-- One end of a swap. -/
  | swapHalf
  /-- A circuit of its own. -/
  | nested (body : κ)
  /-- A gate between two distant wires. -/
  | nonLocal (payload : Placeholder)

/-- A gate. -/
structure Gate where
  id : String
  title : String
  role : Role (Grid Gate)
  height : Nat
  exports : Option Export
  matrix : Option Matrix
  /-- The recognised gate this is, whatever its name. -/
  entangler : Option Entangler
  /-- The cell never changes the state on its own. -/
  inert : Bool
  height_pos : 0 < height

/-- A circuit is a grid of gates. -/
abbrev Circuit : Type := Grid Gate

/-- The bytes of a slot in a column of gates. -/
def cellBytes : Nat := 168

/-- Whether a memory holds a column with some slots. -/
def Memory.holdsColumn (m : Memory) (slots : Nat) : Bool := m.holds cellBytes slots

/-! ## Columns and grids -/

/-- The gates of a column with their rows, from a given row downwards. -/
def Column.placedFrom {γ : Type} : Nat → Column γ → List (Nat × γ)
  | _, [] => []
  | row, none :: rest => placedFrom (row + 1) rest
  | row, some g :: rest => (row, g) :: placedFrom (row + 1) rest

/-- The gates of a column with their rows, top to bottom. -/
def Column.placed {γ : Type} (column : Column γ) : List (Nat × γ) := placedFrom 0 column

/-- A gate of a column stands in the row that it is listed with. -/
theorem Column.mem_placedFrom {γ : Type} {column : Column γ} {start row : Nat} {g : γ} :
    (row, g) ∈ placedFrom start column ↔ start ≤ row ∧ column[row - start]? = some (some g) := by
  induction column generalizing start with
  | nil => simp [placedFrom]
  | cons cell rest ih =>
    by_cases h : row = start
    · subst h
      have : ¬ row + 1 ≤ row := by omega
      cases cell <;> simp [placedFrom, ih, this, eq_comm]
    · have shift : start ≤ row → (cell :: rest)[row - start]? = rest[row - (start + 1)]? := by
        intro le
        rw [show row - start = row - (start + 1) + 1 by omega, List.getElem?_cons_succ]
      have step : start + 1 ≤ row ↔ start ≤ row := by omega
      cases cell <;> simp +contextual [placedFrom, ih, step, shift, h]

/-- The gates of a column are those in its slots. -/
theorem Column.mem_placed {γ : Type} {column : Column γ} {row : Nat} {g : γ} :
    (row, g) ∈ placed column ↔ column[row]? = some (some g) := by
  simp [placed, mem_placedFrom]

/-- Whether a column holds no gate. -/
def Column.isBlank {γ : Type} (column : Column γ) : Bool := column.all Option.isNone

/-- The column with empty slots added up to the number of wires, or cut there. -/
def Column.padTo {γ : Type} (column : Column γ) (wires : Nat) : Column γ :=
  column.take wires ++ List.replicate (wires - column.length) none

namespace Grid

variable {γ : Type}

/-- The grid without columns. -/
def empty (wires : Nat) : Grid γ := ⟨wires, []⟩

/-- The slots of a column; a column past the end has none. -/
def column (g : Grid γ) (i : Nat) : Column γ := g.columns[i]?.getD []

/-- The cell in a slot. -/
def cell? (g : Grid γ) (column row : Nat) : Option γ := ((g.column column)[row]?).join

/-- Every gate with its column and row, column by column, top to bottom. -/
def placements (g : Grid γ) : List (Nat × Nat × γ) :=
  g.columns.zipIdx.flatMap fun (column, i) =>
    (Column.placed column).map fun (row, gate) => (i, row, gate)

end Grid

/-! ## Gates -/

namespace Placeholder

/-- The upper end. -/
def top (p : Placeholder) : Nat := min p.source p.target

/-- The lower end. -/
def bottom (p : Placeholder) : Nat := max p.source p.target

end Placeholder

namespace Entangler

/-- The operation a recognised gate is lowered to. -/
def op : Entangler → Op
  | cx => .cx
  | cz => .cz

/-- The unitary of a recognised gate. -/
def matrix : Entangler → Matrix
  | cx => .cnot
  | cz => .cz

/-- How the ids of its placeholders begin. -/
def idStart : Entangler → String
  | cx => "~nlcx_"
  | cz => "~nlcz_"

/-- The symbol of its placeholders. -/
def symbol : Entangler → String
  | cx => "NL•X"
  | cz => "NL•Z"

/-- The title of its placeholder between two wires. -/
def title (kind : Entangler) (source target : Nat) : String :=
  match kind with
  | cx => s!"NL-CNOT({source}→{target})"
  | cz => s!"NL-CZ({source},{target})"

end Entangler

/-- The same operations, with the given angles for both. -/
def Export.withParams (e : Export) (params : List Float) : Export :=
  { e with params, controlledParams := params }

namespace Gate

/-- A gate of one row without further data. -/
def basic (id title : String) : Gate where
  id := id
  title := title
  role := .unitary
  height := 1
  exports := none
  matrix := none
  entangler := none
  inert := false
  height_pos := by decide

/-- The gate with another height; the least height is one. -/
def withHeight (g : Gate) (height : Nat) : Gate :=
  { g with height := max height 1, height_pos := by omega }

/-- A gate that holds a circuit and is as tall as it. -/
def nested (id title : String) (body : Circuit) : Gate :=
  { basic id title with role := .nested body }.withHeight body.wires

/-- The gate that stands for a recognised gate between two distant wires. -/
def nonLocal (id : String) (payload : Placeholder) : Gate :=
  { basic id (payload.kind.title payload.source payload.target) with
    role := .nonLocal payload, matrix := some payload.kind.matrix }.withHeight 2

/-- Whether the cell is a control of any kind. -/
def isControl (g : Gate) : Bool :=
  match g.role with
  | .control | .antiControl | .parity _ => true
  | _ => false

/-- The value of its wire that a control asks for; parity controls ask for none. -/
def controlBit (g : Gate) : Option Bool :=
  match g.role with
  | .control => some true
  | .antiControl => some false
  | _ => none

/-- Whether the cell is one end of a swap. -/
def isSwapHalf (g : Gate) : Bool :=
  match g.role with
  | .swapHalf => true
  | _ => false

/-- The circuit in a nested gate. -/
def body? (g : Gate) : Option Circuit :=
  match g.role with
  | .nested body => some body
  | _ => none

/-- The payload of a placeholder. -/
def placeholder? (g : Gate) : Option Placeholder :=
  match g.role with
  | .nonLocal payload => some payload
  | _ => none

/-- Whether the cell leaves the state alone: controls and spacers. -/
def hasNoEffect (g : Gate) : Bool := g.inert || g.isControl

/-- Whether the gate is the plain gate of one row for an operation without angles. -/
def isPlain (g : Gate) (op : Op) : Bool :=
  match g.role, g.exports with
  | .unitary, some e => g.height = 1 && e.uncontrolled = op && e.params.isEmpty
  | _, _ => false

/-- The rows a gate covers when its top cell stands in the given row. A placeholder covers its two
ends, wherever they lie. -/
def rowsAt (g : Gate) (row : Nat) : List Nat :=
  match g.role with
  | .nonLocal payload => [payload.top, payload.bottom]
  | _ => List.range' row g.height

/-- The rows of a gate, as words: where the row after the last one wraps around, there are none. -/
def wordRows (g : Gate) (row : Nat) : List Nat :=
  match g.role with
  | .nonLocal _ => g.rowsAt row
  | _ => if row + g.height < wordLimit then g.rowsAt row else []

/-- Whether a memory holds the list of the rows of a gate. -/
def rowsHeld (g : Gate) (m : Memory) (row : Nat) : Bool :=
  match g.role with
  | .nonLocal _ => true
  | _ => wordLimit ≤ row + g.height || m.holds wordBytes g.height

/-- Lists the rows of a gate that is to stand in a circuit with some wires. Inside the circuit they
are words, and no more than the slots of a column that is held; elsewhere the list may be too
long. -/
def listRows (g : Gate) (wires row : Nat) : Option (List Nat) :=
  if row + g.height ≤ wires then some (g.rowsAt row)
  else if g.rowsHeld .machine row then some (g.wordRows row)
  else none

/-- The title, or the id of a gate without one. -/
def name (g : Gate) : String := if g.title.isEmpty then g.id else g.title

/-- The title and the id of a gate. -/
def display (g : Gate) : String := if g.title.isEmpty then g.id else s!"{g.title} ({g.id})"

end Gate

/-! ## Equality

Gates are equal when all their data are, numbers being compared as numbers: the two zeros are
equal, and what is not a number equals nothing. -/

mutual

/-- Whether two gates are equal. -/
def Gate.same : Gate → Gate → Bool
  | ⟨id, title, role, height, exports, matrix, entangler, inert, _⟩, other =>
    id == other.id && title == other.title &&
    (match role, other.role with
      | .unitary, .unitary => true
      | .control, .control => true
      | .antiControl, .antiControl => true
      | .parity a, .parity b => a == b
      | .swapHalf, .swapHalf => true
      | .nested a, .nested b => Grid.same a b
      | .nonLocal a, .nonLocal b => a == b
      | _, _ => false) &&
    height == other.height && exports == other.exports && matrix == other.matrix &&
    entangler == other.entangler && inert == other.inert
termination_by structural g => g

/-- Whether two circuits are equal. -/
def Grid.same : Grid Gate → Grid Gate → Bool
  | ⟨wires, columns⟩, other => wires == other.wires && Gate.sameColumns columns other.columns
termination_by structural c => c

/-- Whether two lists of columns are equal. -/
def Gate.sameColumns : List (List (Option Gate)) → List (List (Option Gate)) → Bool
  | [], [] => true
  | a :: as, b :: bs => Gate.sameCells a b && Gate.sameColumns as bs
  | _, _ => false
termination_by structural columns => columns

/-- Whether two columns are equal. -/
def Gate.sameCells : List (Option Gate) → List (Option Gate) → Bool
  | [], [] => true
  | none :: as, none :: bs => Gate.sameCells as bs
  | some a :: as, some b :: bs => Gate.same a b && Gate.sameCells as bs
  | _, _ => false
termination_by structural cells => cells

end

instance : BEq Gate := ⟨Gate.same⟩

instance : BEq Circuit := ⟨Grid.same⟩

end CircuitGrid
