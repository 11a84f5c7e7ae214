import CircuitGrid.Gate
import CircuitGrid.Program.Basic

/-!
# Lowering circuits to programs

Each column is lowered against its controls. Without a control a payload becomes its uncontrolled
operation and a nested circuit is put in its place; under one control it becomes its controlled
operation; under two controls only the plain NOT is left, as a Toffoli gate. Two swap halves become
a swap, under a control a controlled one. Wires of anti-controls are flipped before the column and
back after it. Every operation takes an output column of its own, the flips of one column share one.

* `Circuit.lower`: the program of a circuit;
* `Frame`: the controls and swap halves of a column;
* `Output`: the instructions so far, with the number of the next output column;
* `LoweringError`: why a circuit has no program.
-/

namespace CircuitGrid

/-- Why a circuit cannot be lowered. Columns are those of the outermost circuit. -/
inductive LoweringError where
  /-- A payload that has no operation in its place. -/
  | unsupportedGate (gate : String) (column wire : Nat)
  | parityControl (column : Nat) (gate : String) (wire : Nat)
  | tooManyControls (column count : Nat)
  | unpairedSwap (column count : Nat)
  | swapUnderTwoControls (column : Nat)
  /-- Under two controls stands another gate than the plain NOT. -/
  | onlyNot (column : Nat) (gate : String) (wire : Nat)
deriving Repr, DecidableEq

namespace LoweringError

/-- The wording of an error. -/
def message : LoweringError → String
  | unsupportedGate gate column wire =>
    s!"Unsupported gate '{gate}' at column {column}, wire {wire}"
  | parityControl column gate wire =>
    s!"Unimplemented circuit at column {column}: " ++
      s!"parity control '{gate}' on wire q{wire} has no lowering"
  | tooManyControls column count =>
    s!"Unimplemented circuit at column {column}: " ++
      s!"{count} controls in one column; at most 2 are supported"
  | unpairedSwap column count =>
    s!"Unimplemented circuit at column {column}: " ++
      s!"a column may only contain 0 or 2 swap halves, found {count}"
  | swapUnderTwoControls column =>
    s!"Unimplemented circuit at column {column}: swap under two controls"
  | onlyNot column gate wire =>
    s!"Unimplemented circuit at column {column}: " ++
      s!"only X may be doubly controlled, found '{gate}' on wire {wire}"

end LoweringError

/-! ## The frame of a column -/

/-- The controls of a column with the bits they ask for, and the wires of its swap halves. -/
structure Frame where
  controls : List (Nat × Bool)
  swaps : List Nat
deriving Repr, DecidableEq

namespace Frame

/-- The controls among the gates of a column, top to bottom. -/
def controlsOf (source offset : Nat) :
    List (Nat × Gate) → Except LoweringError (List (Nat × Bool))
  | [] => .ok []
  | (row, gate) :: rest =>
    if gate.isControl then
      match gate.controlBit with
      | none => .error (.parityControl source gate.id (row + offset))
      | some bit => do return (row + offset, bit) :: (← controlsOf source offset rest)
    else controlsOf source offset rest

/-- The frame of a column of a circuit whose first wire is `offset`; `source` is the outermost
column around it. -/
def ofColumn (source offset : Nat) (column : Column Gate) : Except LoweringError Frame := do
  let placed := Column.placed column
  let controls ← controlsOf source offset placed
  let swaps := (placed.filter (·.2.isSwapHalf)).map fun (row, _) => row + offset
  if controls.length > 2 then throw (.tooManyControls source controls.length)
  else if swaps.length ≠ 0 ∧ swaps.length ≠ 2 then throw (.unpairedSwap source swaps.length)
  else if controls.length = 2 ∧ swaps.length ≠ 0 then throw (.swapUnderTwoControls source)
  else return ⟨controls, swaps⟩

/-- The wires of the anti-controls. -/
def flipped (frame : Frame) : List Nat := (frame.controls.filter (!·.2)).map (·.1)

end Frame

/-! ## The payload of a column -/

/-- Whether a cell is lowered by itself: neither a swap half nor without effect. -/
def Gate.isPayload (g : Gate) : Bool := !g.isSwapHalf && !g.hasNoEffect

/-- The payload of a column with its rows. -/
def Column.payload (column : Column Gate) : List (Nat × Gate) :=
  (Column.placed column).filter (·.2.isPayload)

/-- The error for a payload that has no operation in its place. -/
def unsupported (gate : Gate) (source wire : Nat) : LoweringError :=
  .unsupportedGate gate.name source wire

/-- The operation of a payload under one control. -/
def underControl (source offset control : Nat) (row : Nat) (gate : Gate) :
    Except LoweringError Slice :=
  match gate.role, gate.exports with
  | .nested _, _ => .error (unsupported gate source (row + offset))
  | _, none => .error (unsupported gate source (row + offset))
  | _, some e =>
    match e.controlled with
    | some op =>
      if op.arity = gate.height + 1 then
        .ok [{ op, wires := control :: List.range' (row + offset) gate.height,
               params := e.controlledParams }]
      else .error (unsupported gate source (row + offset))
    | none => .error (unsupported gate source (row + offset))

/-- The operation of a payload under two controls. -/
def underControls (source offset first second : Nat) (row : Nat) (gate : Gate) :
    Except LoweringError Slice :=
  if gate.isPlain .x then .ok [{ op := .ccx, wires := [first, second, row + offset] }]
  else .error (.onlyNot source gate.title (row + offset))

/-! ## Output -/

/-- The instructions so far, and the number of the next output column. -/
structure Output where
  next : Nat := 0
  instructions : List Instruction := []

namespace Output

/-- Puts the operations of a slice into the next output column. -/
def emit (out : Output) (slice : Slice) : Output :=
  ⟨out.next + 1, out.instructions ++ slice.map fun operation => ⟨operation, out.next⟩⟩

/-- Flips wires in one output column; without wires there is none. -/
def flip (out : Output) (wires : List Nat) : Output :=
  if wires.isEmpty then out else out.emit (wires.map fun wire => { op := .x, wires := [wire] })

/-- Emits the swap of a column, if it has one. -/
def emitSwap (out : Output) (frame : Frame) : Output :=
  match frame.swaps, frame.controls with
  | [], _ => out
  | swaps, [] => out.emit [{ op := .swap, wires := swaps }]
  | swaps, (control, _) :: _ => out.emit [{ op := .cswap, wires := control :: swaps }]

/-- Emits what gates are lowered to, one after the other. -/
def emitEach (lowered : Nat × Gate → Except LoweringError Slice) :
    List (Nat × Gate) → Output → Except LoweringError Output
  | [], out => .ok out
  | placed :: rest, out => do emitEach lowered rest (out.emit (← lowered placed))

end Output

mutual

/-- Emits a payload without controls. -/
def emitGate (source offset row : Nat) : Gate → Output → Except LoweringError Output
  | ⟨id, title, role, height, exports, _, _, _, _⟩, out =>
    let wire := row + offset
    let name := if title.isEmpty then id else title
    match role with
    | .nonLocal p =>
      .ok (out.emit [{ op := p.kind.op, wires := [p.source + offset, p.target + offset],
                       label := some title }])
    | role =>
      match exports with
      | some e =>
        if e.uncontrolled.arity = height then
          .ok (out.emit [{ op := e.uncontrolled, wires := List.range' wire height,
                           params := e.params }])
        else .error (.unsupportedGate name source wire)
      | none =>
        match role with
        | .nested body => emitCircuit source wire body out
        | _ => .error (.unsupportedGate name source wire)
termination_by structural g => g

/-- Emits a circuit whose first wire is `offset`. -/
def emitCircuit (source offset : Nat) : Grid Gate → Output → Except LoweringError Output
  | ⟨_, columns⟩, out => emitColumns source offset columns out
termination_by structural c => c

/-- Emits columns of a circuit whose first wire is `offset`. -/
def emitColumns (source offset : Nat) :
    List (List (Option Gate)) → Output → Except LoweringError Output
  | [], out => .ok out
  | column :: rest, out => do
    let frame ← Frame.ofColumn source offset column
    let out := (out.flip frame.flipped).emitSwap frame
    let out ← match frame.controls with
      | [] => emitCells source offset 0 column out
      | [(control, _)] =>
        Output.emitEach (fun (row, gate) => underControl source offset control row gate)
          (Column.payload column) out
      | (first, _) :: (second, _) :: _ =>
        Output.emitEach (fun (row, gate) => underControls source offset first second row gate)
          (Column.payload column) out
    emitColumns source offset rest (out.flip frame.flipped)
termination_by structural columns => columns

/-- Emits the payload among the cells of a column without controls. -/
def emitCells (source offset : Nat) :
    Nat → List (Option Gate) → Output → Except LoweringError Output
  | _, [], out => .ok out
  | row, none :: rest, out => emitCells source offset (row + 1) rest out
  | row, some gate :: rest, out => do
    if gate.isPayload then
      emitCells source offset (row + 1) rest (← emitGate source offset row gate out)
    else emitCells source offset (row + 1) rest out
termination_by structural _ cells => cells

end

/-- Emits the columns of the outermost circuit, of which the first has the given index. -/
def emitFrom : Nat → List (Column Gate) → Output → Except LoweringError Output
  | _, [], out => .ok out
  | index, column :: rest, out => do
    emitFrom (index + 1) rest (← emitColumns index 0 [column] out)

/-- The program of a circuit. -/
def Circuit.lower (c : Circuit) : Except LoweringError Program := do
  let out ← emitFrom 0 c.columns {}
  return ⟨c.wires, out.instructions⟩

end CircuitGrid
