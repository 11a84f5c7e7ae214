import CircuitGrid.Lowering

/-!
# The output columns of a circuit

Lowering passes the number of the next output column along. What it emits does not depend on that
number: it is a list of slices, each of which takes a column of its own. The slices of a circuit are
put together from those of its parts, and numbering them gives its program.

* `numberSlices`, `Program.ofSlices`: the program whose output columns are given slices;
* `lowerGate`, `lowerCircuit`, `lowerColumns`, `lowerCells`, `Circuit.slices`: the slices of a
  circuit, by the same recursion as its program;
* `Output.extend`: what slices add to the output;
* `emitGate_eq`, `emitCircuit_eq`, `emitColumns_eq`, `emitCells_eq`: what is emitted are the slices;
* **`Circuit.lower_eq`**: the program of a circuit is that of its slices.
-/

namespace CircuitGrid

/-- The instructions of slices, of which the first goes into the given column. -/
def numberSlices : Nat → List Slice → List Instruction
  | _, [] => []
  | column, slice :: rest =>
    slice.map (fun operation => ⟨operation, column⟩) ++ numberSlices (column + 1) rest

theorem map_toOperation_numberSlices (column : Nat) (slices : List Slice) :
    (numberSlices column slices).map (·.toOperation) = slices.flatten := by
  induction slices generalizing column with
  | nil => rfl
  | cons slice rest ih =>
    rw [numberSlices, List.map_append, ih, List.map_map, List.flatten_cons]
    congr 1
    exact List.map_id slice

/-- The program whose output columns are the given slices. -/
def Program.ofSlices (wires : Nat) (slices : List Slice) : Program := ⟨wires, numberSlices 0 slices⟩

namespace Frame

/-- The slice that flips the wires of the anti-controls; without any there is none. -/
def flips (frame : Frame) : List Slice :=
  match frame.controls.filter (!·.2) with
  | [] => []
  | anti => [anti.map fun (wire, _) => { op := .x, wires := [wire] }]

/-- The slice of the swap, if the column has one. -/
def swap (frame : Frame) : List Slice :=
  match frame.swaps, frame.controls with
  | [], _ => []
  | swaps, [] => [[{ op := .swap, wires := swaps }]]
  | swaps, (control, _) :: _ => [[{ op := .cswap, wires := control :: swaps }]]

/-- The slices of a column around those of its payload. -/
def wrap (frame : Frame) (payload : List Slice) : List Slice :=
  frame.flips ++ frame.swap ++ payload ++ frame.flips

end Frame

mutual

/-- The slices of a payload without controls. -/
def lowerGate (source offset row : Nat) : Gate → Except LoweringError (List Slice)
  | ⟨id, title, role, height, exports, _, _, _, _⟩ =>
    let wire := row + offset
    let name := if title.isEmpty then id else title
    match role with
    | .nonLocal p =>
      .ok [[{ op := p.kind.op, wires := [p.source + offset, p.target + offset],
              label := some title }]]
    | role =>
      match exports with
      | some e =>
        if e.uncontrolled.arity = height then
          .ok [[{ op := e.uncontrolled, wires := List.range' wire height, params := e.params }]]
        else .error (.unsupportedGate name source wire)
      | none =>
        match role with
        | .nested body => lowerCircuit source wire body
        | _ => .error (.unsupportedGate name source wire)
termination_by structural g => g

/-- The slices of a circuit whose first wire is `offset`. -/
def lowerCircuit (source offset : Nat) : Grid Gate → Except LoweringError (List Slice)
  | ⟨_, columns⟩ => lowerColumns source offset columns
termination_by structural c => c

/-- The slices of columns of a circuit whose first wire is `offset`. -/
def lowerColumns (source offset : Nat) :
    List (List (Option Gate)) → Except LoweringError (List Slice)
  | [] => .ok []
  | column :: rest => do
    let frame ← Frame.ofColumn source offset column
    let payload ← match frame.controls with
      | [] => lowerCells source offset 0 column
      | [(control, _)] =>
        (Column.payload column).mapM fun (row, gate) =>
          underControl source offset control row gate
      | (first, _) :: (second, _) :: _ =>
        (Column.payload column).mapM fun (row, gate) =>
          underControls source offset first second row gate
    return frame.wrap payload ++ (← lowerColumns source offset rest)
termination_by structural columns => columns

/-- The slices of the payload among the cells of a column without controls. -/
def lowerCells (source offset : Nat) :
    Nat → List (Option Gate) → Except LoweringError (List Slice)
  | _, [] => .ok []
  | row, none :: rest => lowerCells source offset (row + 1) rest
  | row, some gate :: rest => do
    if gate.isPayload then
      let slices ← lowerGate source offset row gate
      return slices ++ (← lowerCells source offset (row + 1) rest)
    else lowerCells source offset (row + 1) rest
termination_by structural _ cells => cells

end

/-- The slices of the columns of the outermost circuit, of which the first has the given index. -/
def lowerFrom : Nat → List (Column Gate) → Except LoweringError (List Slice)
  | _, [] => .ok []
  | index, column :: rest => do
    let slices ← lowerColumns index 0 [column]
    return slices ++ (← lowerFrom (index + 1) rest)

/-- The output columns of a circuit. -/
def Circuit.slices (c : Circuit) : Except LoweringError (List Slice) := lowerFrom 0 c.columns

/-! ## What is emitted -/

namespace Output

/-- Puts slices into the next output columns, one after the other. -/
def extend (out : Output) (slices : List Slice) : Output := slices.foldl emit out

@[simp] theorem extend_nil (out : Output) : out.extend [] = out := rfl

@[simp] theorem extend_cons (out : Output) (slice : Slice) (rest : List Slice) :
    out.extend (slice :: rest) = (out.emit slice).extend rest := rfl

@[simp] theorem extend_append (out : Output) (first second : List Slice) :
    out.extend (first ++ second) = (out.extend first).extend second := List.foldl_append

/-- Slices are numbered from the next output column on. -/
theorem extend_eq (out : Output) (slices : List Slice) : out.extend slices =
    ⟨out.next + slices.length, out.instructions ++ numberSlices out.next slices⟩ := by
  induction slices generalizing out with
  | nil => simp [numberSlices]
  | cons slice rest ih =>
    rw [extend_cons, ih, emit, numberSlices]
    simp only [List.append_assoc, List.length_cons, mk.injEq, and_true]
    omega

theorem flip_flipped (out : Output) (frame : Frame) :
    out.flip frame.flipped = out.extend frame.flips := by
  unfold flip Frame.flipped Frame.flips
  cases frame.controls.filter (!·.2) with
  | nil => rfl
  | cons control rest => simp [Function.comp_def]

theorem emitSwap_eq (out : Output) (frame : Frame) :
    out.emitSwap frame = out.extend frame.swap := by
  obtain ⟨controls, swaps⟩ := frame
  cases swaps with
  | nil => rfl
  | cons => cases controls <;> rfl

/-- What is emitted in two steps are the slices of the first one and then those of the second
one. -/
theorem bind_extend {first second : Except LoweringError (List Slice)} {out : Output}
    {next : Output → Except LoweringError Output}
    (rest : ∀ out : Output, next out = second.map out.extend) :
    (first.map out.extend >>= next) =
      (do return (← first) ++ (← second) : Except LoweringError (List Slice)).map out.extend := by
  cases first with
  | error e => rfl
  | ok slices =>
    show next (out.extend slices) = _
    rw [rest]
    cases second with
    | error e => rfl
    | ok later => exact congrArg Except.ok (extend_append out slices later).symm

theorem emitEach_eq {lowered : Nat × Gate → Except LoweringError Slice}
    (placed : List (Nat × Gate)) (out : Output) :
    emitEach lowered placed out = (placed.mapM lowered).map out.extend := by
  induction placed generalizing out with
  | nil => rfl
  | cons p rest ih =>
    rw [emitEach, List.mapM_cons]
    cases lowered p with
    | error e => rfl
    | ok slice =>
      show emitEach lowered rest (out.emit slice) = _
      rw [ih]
      cases rest.mapM lowered <;> rfl

end Output

mutual

theorem emitGate_eq (source offset row : Nat) (g : Gate) (out : Output) :
    emitGate source offset row g out = (lowerGate source offset row g).map out.extend := by
  obtain ⟨id, title, role, height, exports, matrix, entangler, inert, pos⟩ := g
  unfold emitGate lowerGate
  dsimp only
  cases role with
  | nonLocal p => rfl
  | nested body =>
    cases exports with
    | some e => dsimp only; split <;> rfl
    | none => exact emitCircuit_eq source (row + offset) body out
  | _ =>
    cases exports with
    | some e => dsimp only; split <;> rfl
    | none => rfl

theorem emitCircuit_eq (source offset : Nat) (c : Grid Gate) (out : Output) :
    emitCircuit source offset c out = (lowerCircuit source offset c).map out.extend := by
  obtain ⟨wires, columns⟩ := c
  exact emitColumns_eq source offset columns out

theorem emitColumns_eq (source offset : Nat) (columns : List (List (Option Gate)))
    (out : Output) :
    emitColumns source offset columns out = (lowerColumns source offset columns).map out.extend := by
  match columns with
  | [] => rfl
  | column :: rest =>
    rw [emitColumns, lowerColumns]
    cases Frame.ofColumn source offset column with
    | error e => rfl
    | ok frame =>
      -- the frame stands around the payload, whichever form that takes
      have around (payload : Except LoweringError (List Slice)) :
          ((payload.map ((out.flip frame.flipped).emitSwap frame).extend) >>= fun out =>
            emitColumns source offset rest (out.flip frame.flipped)) =
          (do return frame.wrap (← payload) ++ (← lowerColumns source offset rest) :
            Except LoweringError (List Slice)).map out.extend := by
        cases payload with
        | error e => rfl
        | ok slices =>
          show emitColumns source offset rest
            ((((out.flip frame.flipped).emitSwap frame).extend slices).flip frame.flipped) = _
          rw [emitColumns_eq, Output.flip_flipped, Output.flip_flipped, Output.emitSwap_eq]
          cases lowerColumns source offset rest with
          | error e => rfl
          | ok later => simp [Except.map, Frame.wrap, bind, Except.bind, pure, Except.pure]
      obtain ⟨controls, swaps⟩ := frame
      match controls with
      | [] => exact (congrArg (· >>= _) (emitCells_eq source offset 0 column _)).trans (around _)
      | [_] => exact (congrArg (· >>= _) (Output.emitEach_eq _ _)).trans (around _)
      | _ :: _ :: _ => exact (congrArg (· >>= _) (Output.emitEach_eq _ _)).trans (around _)

theorem emitCells_eq (source offset row : Nat) (cells : List (Option Gate)) (out : Output) :
    emitCells source offset row cells out =
      (lowerCells source offset row cells).map out.extend := by
  match cells with
  | [] => rfl
  | none :: rest => exact emitCells_eq source offset (row + 1) rest out
  | some g :: rest =>
    rw [emitCells, lowerCells]
    split
    · rw [emitGate_eq]
      exact Output.bind_extend fun out => emitCells_eq source offset (row + 1) rest out
    · exact emitCells_eq source offset (row + 1) rest out

end

theorem emitFrom_eq (index : Nat) (columns : List (Column Gate)) (out : Output) :
    emitFrom index columns out = (lowerFrom index columns).map out.extend := by
  induction columns generalizing index out with
  | nil => rfl
  | cons column rest ih =>
    rw [emitFrom, emitColumns_eq, lowerFrom]
    exact Output.bind_extend fun out => ih (index + 1) out

/-- **Numbering the slices of a circuit gives its program**: passing the number of the next output
column along comes to the same. -/
theorem Circuit.lower_eq (c : Circuit) :
    c.lower = c.slices.map (Program.ofSlices c.wires) := by
  rw [lower, emitFrom_eq, slices]
  cases lowerFrom 0 c.columns with
  | error e => rfl
  | ok slices =>
    show Except.ok (Program.mk c.wires (Output.extend {} slices).instructions) = _
    rw [Output.extend_eq]
    simp [Program.ofSlices, Except.map]

end CircuitGrid
