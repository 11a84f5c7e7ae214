import CircuitGrid.Proofs.Slices
import CircuitGrid.Proofs.Layout

/-!
# Lowering column by column

The slices of a circuit are those of its columns one after the other, and a column is its frame
around the slices of its payload. The payload is lowered gate by gate in all three cases: without
controls, under one control, and under two.

* `lowerColumn`, `lowerColumns_cons`, `lowerFrom_cons`: lowering one column after the other;
* `lowerColumns_eq`, `lowerFrom_eq`: all columns together;
* `lowerFrom_around`: a column among others, whatever stands there;
* `lowerPayload`: the payload of a column against given controls;
* `lowerCells_eq`: the cells without controls are their payload, lowered gate by gate;
* `Frame.ofColumn_eq_ok`: the columns that have a frame;
* `lowerColumn_of_free`: columns without controls.
-/

namespace CircuitGrid

/-! ## Columns -/

/-- The slices of the payload of a column under given controls. -/
def lowerPayload (source offset : Nat) (controls : List (Nat × Bool)) (column : Column Gate) :
    Except LoweringError (List Slice) :=
  match controls with
  | [] => do
    return (← (Column.payload column).mapM fun (row, gate) =>
      lowerGate source offset row gate).flatten
  | [(control, _)] =>
    (Column.payload column).mapM fun (row, gate) => underControl source offset control row gate
  | (first, _) :: (second, _) :: _ =>
    (Column.payload column).mapM fun (row, gate) =>
      underControls source offset first second row gate

/-- The slices of one column. -/
def lowerColumn (source offset : Nat) (column : Column Gate) :
    Except LoweringError (List Slice) := do
  let frame ← Frame.ofColumn source offset column
  return frame.wrap (← lowerPayload source offset frame.controls column)

/-- The cells of a column without controls are lowered gate by gate. -/
theorem lowerCells_eq {source offset row : Nat} {cells : Column Gate} :
    lowerCells source offset row cells = (do
      return (← ((Column.placedFrom row cells).filter (·.2.isPayload)).mapM fun (row, gate) =>
        lowerGate source offset row gate).flatten) := by
  induction cells generalizing row with
  | nil => simp [lowerCells, Column.placedFrom, pure, Except.pure, bind, Except.bind]
  | cons cell rest ih =>
    cases cell with
    | none => rw [lowerCells, ih, Column.placedFrom]
    | some g =>
      rw [lowerCells, ih, Column.placedFrom, List.filter_cons]
      split
      · rw [List.mapM_cons]
        simp
      · rfl

theorem lowerColumns_cons {source offset : Nat} {column : Column Gate}
    {rest : List (Column Gate)} :
    lowerColumns source offset (column :: rest) = (do
      return (← lowerColumn source offset column) ++ (← lowerColumns source offset rest)) := by
  rw [lowerColumns]
  simp only [lowerColumn, bind_assoc, pure_bind]
  congr 1
  funext frame
  obtain ⟨controls, swaps⟩ := frame
  obtain _ | ⟨control, _ | ⟨second, others⟩⟩ := controls
  · simp [lowerPayload, lowerCells_eq, Column.payload, Column.placed]
  · simp [lowerPayload]
  · simp [lowerPayload]

theorem lowerCircuit_eq {source offset : Nat} (c : Circuit) :
    lowerCircuit source offset c = lowerColumns source offset c.columns := by
  cases c
  rfl

theorem lowerFrom_cons {index : Nat} {column : Column Gate} {rest : List (Column Gate)} :
    lowerFrom index (column :: rest) = (do
      return (← lowerColumn index 0 column) ++ (← lowerFrom (index + 1) rest)) := by
  rw [lowerFrom, lowerColumns_cons]
  simp [lowerColumns]

theorem lowerFrom_append {index : Nat} {before after : List (Column Gate)} :
    lowerFrom index (before ++ after) = (do
      return (← lowerFrom index before) ++ (← lowerFrom (index + before.length) after)) := by
  induction before generalizing index with
  | nil => simp [lowerFrom]
  | cons column rest ih =>
    have next : index + (rest.length + 1) = index + 1 + rest.length := by omega
    rw [List.cons_append, lowerFrom_cons, lowerFrom_cons, ih, List.length_cons, next]
    simp only [bind_assoc, pure_bind, List.append_assoc]

theorem lowerColumns_eq {source offset : Nat} {columns : List (Column Gate)} :
    lowerColumns source offset columns = (do
      return (← columns.mapM (lowerColumn source offset)).flatten) := by
  induction columns with
  | nil => rfl
  | cons column rest ih =>
    rw [lowerColumns_cons, ih, List.mapM_cons]
    simp

theorem lowerFrom_eq {index : Nat} {columns : List (Column Gate)} :
    lowerFrom index columns = (do
      return (← (columns.zipIdx index).mapM fun q => lowerColumn q.2 0 q.1).flatten) := by
  induction columns generalizing index with
  | nil => rfl
  | cons column rest ih =>
    rw [lowerFrom_cons, ih, List.zipIdx_cons, List.mapM_cons]
    simp

/-- One column among others. -/
theorem lowerFrom_around {columns : List (Column Gate)} {i : Nat} (lt : i < columns.length)
    {column : Column Gate} :
    lowerFrom 0 (columns.take i ++ column :: columns.drop (i + 1)) = (do
      let earlier ← lowerFrom 0 (columns.take i)
      let slices ← lowerColumn i 0 column
      let later ← lowerFrom (i + 1) (columns.drop (i + 1))
      return earlier ++ (slices ++ later)) := by
  have length : (columns.take i).length = i := by
    rw [List.length_take]
    omega
  rw [lowerFrom_append, length, Nat.zero_add, lowerFrom_cons]
  simp

theorem Circuit.lower_eq_ok {c : Circuit} {p : Program} : c.lower = .ok p ↔
    ∃ slices, c.slices = .ok slices ∧ .ofSlices c.wires slices = p := by
  rw [lower_eq]
  cases c.slices <;> simp [Except.map]

/-! ## Payloads without controls -/

section

variable {source offset row : Nat} {g : Gate}

theorem lowerGate_of_nonLocal {p : Placeholder} (role : g.role = .nonLocal p) :
    lowerGate source offset row g =
      .ok [[{ op := p.kind.op, wires := [p.source + offset, p.target + offset],
              label := some g.title }]] := by
  cases g
  simp only at role
  subst role
  rfl

theorem lowerGate_of_exports {e : Export} (role : ∀ p, g.role ≠ .nonLocal p)
    (exports : g.exports = some e) :
    lowerGate source offset row g =
      if e.uncontrolled.arity = g.height then
        .ok [[{ op := e.uncontrolled, wires := List.range' (row + offset) g.height,
                params := e.params }]]
      else .error (unsupported g source (row + offset)) := by
  obtain ⟨id, title, role', height, exports', matrix, entangler, inert, pos⟩ := g
  simp only at exports
  subst exports
  cases role' with
  | nonLocal p => exact absurd rfl (role p)
  | _ => rfl

theorem lowerGate_of_nested {body : Circuit} (role : g.role = .nested body)
    (exports : g.exports = none) :
    lowerGate source offset row g = lowerCircuit source (row + offset) body := by
  cases g
  simp only at role exports
  subst role exports
  rfl

theorem lowerGate_of_none (role : ∀ p, g.role ≠ .nonLocal p) (exports : g.exports = none)
    (flat : g.body? = none) :
    lowerGate source offset row g = .error (unsupported g source (row + offset)) := by
  obtain ⟨id, title, role', height, exports', matrix, entangler, inert, pos⟩ := g
  simp only at exports
  subst exports
  cases role' with
  | nonLocal p => exact absurd rfl (role p)
  | nested body => cases flat
  | _ => rfl

end

theorem underControl_of_controlled {source offset row control : Nat} {g : Gate} {e : Export}
    {op : Op} (flat : g.body? = none) (exports : g.exports = some e)
    (known : e.controlled = some op) (arity : op.arity = g.height + 1) :
    underControl source offset control row g =
      .ok [{ op, wires := control :: List.range' (row + offset) g.height,
             params := e.controlledParams }] := by
  unfold underControl
  split
  · next role => simp [Gate.body?, role] at flat
  · next none _ =>
    rw [exports] at none
    cases none
  · next same _ =>
    rw [exports, Option.some.injEq] at same
    subst same
    rw [known]
    exact if_pos arity

/-! ## Frames -/

/-- The wires of the controls of a column with the values they ask for. A parity control asks for
no value of its wire. -/
def Column.conditions (offset : Nat) (column : Column Gate) : List (Nat × Bool) :=
  (Column.placed column).filterMap fun p => p.2.controlBit.map fun bit => (p.1 + offset, bit)

/-- The wires of the swap halves of a column. -/
def Column.swapWires (offset : Nat) (column : Column Gate) : List Nat :=
  ((Column.placed column).filter (·.2.isSwapHalf)).map fun p => p.1 + offset

/-- Every wire of a column has at most one condition. -/
theorem Column.nodup_conditions (offset : Nat) (column : Column Gate) :
    ((conditions offset column).map (·.1)).Nodup := by
  unfold conditions
  rw [List.Nodup, List.pairwise_map, List.pairwise_filterMap]
  refine (pairwise_placed column).imp fun {p q} below c hc d hd same => ?_
  simp only [Option.map_eq_some_iff] at hc hd
  obtain ⟨_, -, rfl⟩ := hc
  obtain ⟨_, -, rfl⟩ := hd
  simp only at same
  omega

theorem Column.mem_conditions {offset : Nat} {column : Column Gate} {c : Nat × Bool} :
    c ∈ conditions offset column ↔
      ∃ p ∈ placed column, p.2.controlBit = some c.2 ∧ p.1 + offset = c.1 := by
  simp only [conditions, List.mem_filterMap, Option.map_eq_some_iff]
  constructor
  · rintro ⟨p, h, bit, found, rfl⟩
    exact ⟨p, h, found, rfl⟩
  · rintro ⟨p, h, found, row⟩
    exact ⟨p, h, c.2, found, by rw [row]⟩

/-- Every wire of a column holds at most one swap half. -/
theorem Column.nodup_swapWires (offset : Nat) (column : Column Gate) :
    (swapWires offset column).Nodup := by
  rw [swapWires, List.Nodup, List.pairwise_map]
  refine ((pairwise_placed column).sublist List.filter_sublist).imp fun {p q} below same => ?_
  omega

theorem Column.mem_swapWires {offset : Nat} {column : Column Gate} {wire : Nat} :
    wire ∈ swapWires offset column ↔
      ∃ p ∈ placed column, p.2.isSwapHalf ∧ p.1 + offset = wire := by
  simp only [swapWires, List.mem_map, List.mem_filter, and_assoc]

theorem Gate.isControl_of_controlBit {g : Gate} {bit : Bool} (h : g.controlBit = some bit) :
    g.isControl := by
  unfold Gate.controlBit at h
  unfold Gate.isControl
  split at h <;> simp_all

theorem Gate.controlBit_eq_none {g : Gate} (h : ¬ g.isControl) : g.controlBit = none :=
  Option.eq_none_iff_forall_ne_some.mpr fun _ found => h (isControl_of_controlBit found)

/-- The conditions of a column are those of its controls. -/
theorem Column.conditions_eq_filter {offset : Nat} {column : Column Gate} :
    conditions offset column = ((placed column).filter (·.2.isControl)).filterMap fun p =>
      p.2.controlBit.map fun bit => (p.1 + offset, bit) := by
  rw [conditions, List.filterMap_filter]
  refine List.filterMap_congr fun p _ => ?_
  split
  · rfl
  · next other => rw [Gate.controlBit_eq_none other, Option.map_none]

theorem Column.conditions_eq_nil {offset : Nat} {column : Column Gate}
    (free : ∀ q ∈ placed column, ¬ q.2.isControl) : conditions offset column = [] :=
  List.filterMap_eq_nil_iff.mpr fun q h => by rw [Gate.controlBit_eq_none (free q h), Option.map_none]

theorem Frame.controlsOf_eq_ok {source offset : Nat} {placed : List (Nat × Gate)}
    {controls : List (Nat × Bool)} :
    Frame.controlsOf source offset placed = .ok controls ↔
      (∀ p ∈ placed, p.2.isControl → p.2.controlBit.isSome) ∧
        controls = placed.filterMap fun p => p.2.controlBit.map fun bit => (p.1 + offset, bit) := by
  induction placed generalizing controls with
  | nil =>
    rw [Frame.controlsOf, Except.ok.injEq]
    exact ⟨fun h => ⟨fun p inside => (List.not_mem_nil inside).elim, h.symm⟩, fun h => h.2.symm⟩
  | cons p rest ih =>
    obtain ⟨row, g⟩ := p
    rw [Frame.controlsOf]
    split
    · next control =>
      split
      · next parity => simp [control, parity]
      · next bit found =>
        simp only [Except.bind_eq_ok, ih, pure, Except.pure, Except.ok.injEq]
        simp only [List.mem_cons, forall_eq_or_imp, found, List.filterMap_cons, Option.map_some,
          Option.isSome_some, implies_true, true_and]
        constructor
        · rintro ⟨_, ⟨plain, rfl⟩, rfl⟩
          exact ⟨plain, rfl⟩
        · rintro ⟨plain, rfl⟩
          exact ⟨_, ⟨plain, rfl⟩, rfl⟩
    · next other =>
      rw [ih]
      simp [other, Gate.controlBit_eq_none other]

/-- The frame of a column with the given conditions and swap halves, if it is a possible one. -/
def Frame.checked (source : Nat) (controls : List (Nat × Bool)) (swaps : List Nat) :
    Except LoweringError Frame :=
  if controls.length > 2 then throw (.tooManyControls source controls.length)
  else if swaps.length ≠ 0 ∧ swaps.length ≠ 2 then throw (.unpairedSwap source swaps.length)
  else if controls.length = 2 ∧ swaps.length ≠ 0 then throw (.swapUnderTwoControls source)
  else return ⟨controls, swaps⟩

theorem Frame.ofColumn_eq (source offset : Nat) (column : Column Gate) :
    Frame.ofColumn source offset column = (do
      let controls ← Frame.controlsOf source offset (Column.placed column)
      Frame.checked source controls (Column.swapWires offset column)) := rfl

theorem Frame.checked_eq_ok {source : Nat} {controls : List (Nat × Bool)} {swaps : List Nat}
    {frame : Frame} : Frame.checked source controls swaps = .ok frame ↔
      frame = ⟨controls, swaps⟩ ∧ frame.controls.length ≤ 2 ∧
        (frame.swaps.length = 0 ∨ frame.swaps.length = 2) ∧
          (frame.controls.length = 2 → frame.swaps = []) := by
  constructor
  · intro checked
    unfold Frame.checked at checked
    split_ifs at checked with many unpaired under
    cases checked
    refine ⟨rfl, by simpa using many, ?_, fun two => ?_⟩
    · show swaps.length = 0 ∨ swaps.length = 2
      omega
    · have none : swaps.length = 0 := by
        by_contra some
        exact under ⟨two, some⟩
      exact List.eq_nil_of_length_eq_zero none
  · rintro ⟨rfl, few, paired, free⟩
    simp only at few paired free
    rw [Frame.checked, if_neg (by omega), if_neg (by omega), if_neg]
    · rfl
    · rintro ⟨two, swaps⟩
      rw [free two] at swaps
      exact swaps rfl

/-- A column has a frame when none of its controls is a parity control, no more than two are left,
its swap halves pair up, and no swap stands under two controls. -/
theorem Frame.ofColumn_eq_ok {source offset : Nat} {column : Column Gate} {frame : Frame} :
    Frame.ofColumn source offset column = .ok frame ↔
      (∀ p ∈ Column.placed column, p.2.isControl → p.2.controlBit.isSome) ∧
        frame = ⟨Column.conditions offset column, Column.swapWires offset column⟩ ∧
          frame.controls.length ≤ 2 ∧ (frame.swaps.length = 0 ∨ frame.swaps.length = 2) ∧
            (frame.controls.length = 2 → frame.swaps = []) := by
  simp only [Frame.ofColumn_eq, Except.bind_eq_ok, Frame.controlsOf_eq_ok, Frame.checked_eq_ok]
  constructor
  · rintro ⟨_, ⟨plain, rfl⟩, checked⟩
    exact ⟨plain, checked⟩
  · rintro ⟨plain, checked⟩
    exact ⟨_, ⟨plain, rfl⟩, checked⟩

/-! ## Columns without controls -/

theorem Frame.controlsOf_eq_nil {source offset : Nat} {cells : List (Nat × Gate)}
    (free : ∀ q ∈ cells, ¬ q.2.isControl) : Frame.controlsOf source offset cells = .ok [] := by
  rw [Frame.controlsOf_eq_ok]
  refine ⟨fun q h control => absurd control (free q h), ?_⟩
  rw [eq_comm, List.filterMap_eq_nil_iff]
  intro q h
  rw [Gate.controlBit_eq_none (free q h), Option.map_none]

/-- A column without controls is its swap and what its payloads are lowered to. -/
theorem lowerColumn_of_free {source offset : Nat} {column : Column Gate}
    (free : ∀ q ∈ Column.placed column, ¬ q.2.isControl) :
    lowerColumn source offset column = (do
      let frame ← Frame.checked source [] (Column.swapWires offset column)
      return frame.swap ++ (← (Column.payload column).mapM fun (row, gate) =>
        lowerGate source offset row gate).flatten) := by
  rw [lowerColumn, Frame.ofColumn_eq, Frame.controlsOf_eq_nil free, Except.ok_bind]
  cases checked : Frame.checked source [] (Column.swapWires offset column) with
  | error e => rfl
  | ok frame =>
    obtain ⟨rfl, -⟩ := Frame.checked_eq_ok.mp checked
    simp [lowerPayload, Frame.wrap, Frame.flips]

end CircuitGrid
