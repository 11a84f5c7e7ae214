import CircuitGrid.Proofs.Holes

/-!
# Anti-controls

A column with anti-controls gives the operations of the column with controls in their place, between
two flips of their wires. So does a column that stands between others, or in a nested circuit that
is put in the place of its gate.

* `Column.positive`, `Column.antiRows`, `Column.flips`: a column with controls in the place of its
  anti-controls, and the flips around it;
* **`lowerColumn_positive`**: the slices of a column with anti-controls;
* `Circuit.lower_positive`: its program, when it stands by itself;
* `Hole.FlipsAround`: anti-controls in a hole flip around their column;
* **`Hole.lower_antiControls`**: they do so in every hole that only circuits in the place of their
  gates surround.
-/

namespace CircuitGrid

/-! ## Controls for anti-controls -/

/-- A control in the place of an anti-control. -/
def Gate.positive (on g : Gate) : Gate := if g.controlBit = some false then on else g

namespace Column

/-- The column with a control in the place of every anti-control. -/
def positive (on : Gate) (column : Column Gate) : Column Gate :=
  column.map (Option.map (Gate.positive on))

/-- The rows of the anti-controls of a column. -/
def antiRows (column : Column Gate) : List Nat :=
  ((placed column).filter (·.2.controlBit = some false)).map (·.1)

/-- The flips of the wires of the anti-controls. -/
def flips (offset : Nat) (column : Column Gate) : Slice :=
  (antiRows column).map fun row => { op := .x, wires := [row + offset] }

end Column

theorem Gate.positive_of_ne {on g : Gate} (other : g.controlBit ≠ some false) :
    positive on g = g := if_neg other

theorem Gate.role_of_controlBit {g : Gate} (anti : g.controlBit = some false) :
    g.role = .antiControl := by
  unfold controlBit at anti
  split at anti
  · cases anti
  · assumption
  · cases anti

section

variable {on : Gate} (control : on.role = .control) (g : Gate)
include control

theorem Gate.isControl_positive : (positive on g).isControl = g.isControl := by
  unfold positive
  split
  · next anti => simp [isControl, control, role_of_controlBit anti]
  · rfl

theorem Gate.isSwapHalf_positive : (positive on g).isSwapHalf = g.isSwapHalf := by
  unfold positive
  split
  · next anti => simp [isSwapHalf, control, role_of_controlBit anti]
  · rfl

theorem Gate.isPayload_positive : (positive on g).isPayload = g.isPayload := by
  unfold positive
  split
  · next anti => simp [isPayload, hasNoEffect, isControl, control, role_of_controlBit anti]
  · rfl

theorem Gate.controlBit_positive :
    (positive on g).controlBit = g.controlBit.map fun _ => true := by
  unfold positive
  split
  · next anti =>
    rw [anti]
    simp [controlBit, control]
  · next other =>
    cases asked : g.controlBit with
    | none => rfl
    | some bit => cases bit <;> simp_all

end

theorem Gate.positive_of_isPayload {on g : Gate} (isPayload : g.isPayload) : positive on g = g := by
  apply positive_of_ne
  intro anti
  simp [Gate.isPayload, hasNoEffect, isControl, role_of_controlBit anti] at isPayload

namespace Column

variable {on : Gate} {column : Column Gate} {source offset : Nat}

theorem placedFrom_map {f : Gate → Gate} {row : Nat} :
    placedFrom row (column.map (Option.map f)) = (placedFrom row column).map (Prod.map id f) := by
  induction column generalizing row with
  | nil => rfl
  | cons cell rest ih =>
    cases cell with
    | none => exact ih
    | some g => exact congrArg ((row, f g) :: ·) ih

theorem placed_positive :
    placed (positive on column) = (placed column).map (Prod.map id (Gate.positive on)) :=
  placedFrom_map

variable (control : on.role = .control)
include control

theorem payload_positive : payload (positive on column) = payload column := by
  rw [payload, placed_positive, filter_map_eq fun q _ => Gate.isPayload_positive control q.2]
  refine (List.map_congr_left fun q h => ?_).trans (List.map_id _)
  rw [Prod.map, Gate.positive_of_isPayload (List.mem_filter.mp h).2]
  rfl

theorem swapWires_positive : swapWires offset (positive on column) = swapWires offset column := by
  rw [swapWires, placed_positive, filter_map_eq fun q _ => Gate.isSwapHalf_positive control q.2,
    List.map_map]
  rfl

end Column

/-! ## One column -/

namespace Frame

/-- The frame with all controls asking for ones. -/
def positive (frame : Frame) : Frame := ⟨frame.controls.map fun c => (c.1, true), frame.swaps⟩

variable {on : Gate} {column : Column Gate} {source offset : Nat} {frame : Frame}

theorem flips_positive : frame.positive.flips = [] := by
  have none : frame.positive.controls.filter (!·.2) = [] := by simp [positive]
  rw [flips, none]

theorem swap_positive : frame.positive.swap = frame.swap := by
  obtain ⟨controls, swaps⟩ := frame
  cases swaps <;> cases controls <;> rfl

/-- A frame is the one without anti-controls between flips. -/
theorem wrap_eq (payload : List Slice) :
    frame.wrap payload = frame.flips ++ frame.positive.wrap payload ++ frame.flips := by
  simp [wrap, flips_positive, swap_positive]

theorem checked_positive {controls : List (Nat × Bool)} {swaps : List Nat} :
    checked source (controls.map fun c => (c.1, true)) swaps =
      (checked source controls swaps).map positive := by
  unfold checked
  rw [List.length_map]
  split_ifs <;> rfl

variable (control : on.role = .control)
include control

theorem controlsOf_positive (cells : List (Nat × Gate)) :
    controlsOf source offset (cells.map (Prod.map id (Gate.positive on))) =
      (controlsOf source offset cells).map (List.map fun c => (c.1, true)) := by
  induction cells with
  | nil => rfl
  | cons p rest ih =>
    obtain ⟨row, g⟩ := p
    rw [List.map_cons, Prod.map, controlsOf, controlsOf, ih, Gate.isControl_positive control,
      Gate.controlBit_positive control]
    split
    · cases asked : g.controlBit with
      | none =>
        have same : Gate.positive on g = g := Gate.positive_of_ne (by simp [asked])
        rw [same]
        rfl
      | some bit => cases controlsOf source offset rest <;> rfl
    · rfl

theorem ofColumn_positive : ofColumn source offset (Column.positive on column) =
    (ofColumn source offset column).map positive := by
  rw [ofColumn_eq, ofColumn_eq, Column.placed_positive, controlsOf_positive control,
    Column.swapWires_positive control]
  cases controlsOf source offset (Column.placed column) with
  | error e => rfl
  | ok controls => exact checked_positive

end Frame

section

variable {on : Gate} {column : Column Gate} {source offset : Nat} {frame : Frame}

theorem Column.filter_conditions : (conditions offset column).filter (!·.2) =
    (antiRows column).map fun row => (row + offset, false) := by
  rw [conditions, antiRows, List.map_map]
  induction placed column with
  | nil => rfl
  | cons p rest ih =>
    cases asked : p.2.controlBit with
    | none => simpa [asked] using ih
    | some bit => cases bit <;> simpa [asked] using ih

theorem Frame.flips_of_ofColumn (framed : ofColumn source offset column = .ok frame)
    (anti : Column.antiRows column ≠ []) : frame.flips = [Column.flips offset column] := by
  obtain ⟨-, rfl, -⟩ := ofColumn_eq_ok.mp framed
  rw [flips, Column.filter_conditions, Column.flips]
  cases rows : Column.antiRows column with
  | nil => exact absurd rows anti
  | cons row rest => simp

/-- The payload does not depend on the values that its controls ask for. -/
theorem lowerPayload_positive (control : on.role = .control) (controls : List (Nat × Bool)) :
    lowerPayload source offset (controls.map fun c => (c.1, true)) (Column.positive on column) =
      lowerPayload source offset controls column := by
  match controls with
  | [] => simp only [lowerPayload, List.map_nil, Column.payload_positive control]
  | [c] => simp only [lowerPayload, List.map_cons, List.map_nil, Column.payload_positive control]
  | c :: d :: _ => simp only [lowerPayload, List.map_cons, Column.payload_positive control]

/-- **The slices of a column with anti-controls** are those of the column with controls in their
place, between flips. Where that column is not lowered, neither is this one, for the same reason. -/
theorem lowerColumn_positive (control : on.role = .control) (anti : Column.antiRows column ≠ []) :
    lowerColumn source offset column = (lowerColumn source offset (Column.positive on column)).map
      fun slices => Column.flips offset column :: (slices ++ [Column.flips offset column]) := by
  rw [lowerColumn, lowerColumn, Frame.ofColumn_positive control]
  cases framed : Frame.ofColumn source offset column with
  | error e => rfl
  | ok frame =>
    have payloads : lowerPayload source offset frame.positive.controls (Column.positive on column) =
        lowerPayload source offset frame.controls column := lowerPayload_positive control _
    simp only [Except.map, Except.ok_bind, payloads]
    cases lowerPayload source offset frame.controls column with
    | error e => rfl
    | ok payload =>
      simp only [Except.ok_bind, pure, Except.pure, Except.ok.injEq]
      rw [Frame.wrap_eq, Frame.flips_of_ofColumn framed anti, List.append_assoc]
      rfl

end

/-! ## Programs -/

section

variable (before inner after : List Slice) (wires : Nat)

theorem numberSlices_between :
    numberSlices 0 (before ++ (inner.map (Slice.below wires) ++ after)) =
      numberSlices 0 before ++
        (numberSlices 0 inner).map (fun i => (i.below wires).later before.length) ++
        (numberSlices before.length after).map (·.later inner.length) := by
  rw [numberSlices_append, Nat.zero_add, numberSlices_append, numberSlices_moved, List.length_map,
    numberSlices_later, List.append_assoc]

theorem numberSlices_flips (flips : Slice) :
    numberSlices 0 (before ++ (flips :: (inner.map (Slice.below wires) ++ [flips]) ++ after)) =
      numberSlices 0 before ++ numbered before.length flips ++
        (numberSlices 0 inner).map (fun i => (i.below wires).later (before.length + 1)) ++
        numbered (before.length + 1 + inner.length) flips ++
        (numberSlices before.length after).map (·.later (inner.length + 2)) := by
  have last : before.length + 1 + inner.length + 1 = before.length + (inner.length + 2) := by omega
  rw [numberSlices_append, Nat.zero_add, List.cons_append, numberSlices_cons, List.append_assoc,
    numberSlices_append, numberSlices_moved, List.length_map, List.singleton_append,
    numberSlices_cons, last, numberSlices_later]
  simp only [List.append_assoc]

end

/-- A column by itself. -/
theorem Circuit.slices_single (wires : Nat) (column : Column Gate) :
    slices ⟨wires, [column]⟩ = lowerColumn 0 0 column := by
  rw [slices, lowerFrom_cons, lowerFrom]
  cases lowerColumn 0 0 column with
  | error e => rfl
  | ok slices => exact congrArg Except.ok (List.append_nil slices)

/-- A column that is lowered somewhere is lowered by itself, to the same further up. -/
theorem Circuit.exists_slices_single {source first : Nat} {column : Column Gate}
    {slices : List Slice} (wires : Nat) (lowered : lowerColumn source first column = .ok slices) :
    ∃ inner, slices = inner.map (Slice.below first) ∧
      Circuit.slices ⟨wires, [column]⟩ = .ok inner := by
  obtain ⟨inner, single⟩ : ∃ inner, lowerColumn 0 0 column = .ok inner :=
    lowerColumn_ok_iff.mpr (lowerColumn_ok_iff.mp ⟨slices, lowered⟩)
  have moved := lowerColumn_below source first single
  rw [Nat.zero_add, lowered, Except.ok.injEq] at moved
  exact ⟨inner, moved, (slices_single wires column).trans single⟩

/-- The program of a column with anti-controls by itself. -/
theorem Circuit.lower_positive {on : Gate} (control : on.role = .control) {column : Column Gate}
    (anti : Column.antiRows column ≠ []) (wires : Nat) :
    lower ⟨wires, [column]⟩ = (lower ⟨wires, [Column.positive on column]⟩).map fun q =>
      ⟨wires, numbered 0 (Column.flips 0 column) ++ q.instructions.map (·.later 1) ++
        numbered (1 + q.numColumns) (Column.flips 0 column)⟩ := by
  have single := slices_single wires (Column.positive on column)
  rw [lower_eq, lower_eq, slices_single, lowerColumn_positive control anti, single]
  cases lowered : lowerColumn 0 0 (Column.positive on column) with
  | error e => rfl
  | ok inner =>
    rw [lowered] at single
    have count := numColumns_of_slices single wires
    refine congrArg Except.ok ?_
    show (⟨wires, numberSlices 0 (_ :: (inner ++ [_]))⟩ : Program) =
      ⟨wires, _ ++ (numberSlices 0 inner).map (·.later 1) ++
        numbered (1 + (Program.ofSlices wires inner).numColumns) _⟩
    rw [count, numberSlices_cons, numberSlices_append, numberSlices_later, numberSlices_cons,
      numberSlices, List.append_nil, List.append_assoc, Nat.zero_add]

namespace Hole

/-- The instructions of a column with anti-controls in the hole are those of the column with
controls in their place, on wires further down, between two flips that take a column each. The
instructions before it stay where they are, and those after it come two columns later. Where one
of the two circuits is not lowered the other one is not, for the same reason. -/
def FlipsAround (on : Gate) (hole : Hole) : Prop :=
  ∃ (start : Nat) (before after : List Instruction),
    (∀ i ∈ before, i.column < start) ∧ (∀ i ∈ after, start ≤ i.column) ∧
      ∀ column, Column.antiRows column ≠ [] →
        (∃ e, (hole.fill column).lower = .error e ∧
          (hole.fill (Column.positive on column)).lower = .error e) ∨
        ∃ q, Circuit.lower ⟨hole.wires, [Column.positive on column]⟩ = .ok q ∧
          (hole.fill (Column.positive on column)).lower = .ok ⟨hole.wires,
            before ++ q.instructions.map (fun i => (i.below hole.first).later start) ++
              after.map (·.later q.numColumns)⟩ ∧
          (hole.fill column).lower = .ok ⟨hole.wires,
            before ++ numbered start (Column.flips hole.first column) ++
              q.instructions.map (fun i => (i.below hole.first).later (start + 1)) ++
              numbered (start + 1 + q.numColumns) (Column.flips hole.first column) ++
              after.map (·.later (q.numColumns + 2))⟩

variable {hole : Hole} {on : Gate}

/-- **Anti-controls flip around their column** in every hole that only circuits in the place of
their gates surround. -/
theorem flipsAround_of_expanded (control : on.role = .control) (expanded : hole.Expanded) :
    hole.FlipsAround on := by
  obtain ⟨before, after, parts⟩ := between_slices expanded
  simp only at parts
  have lower_error {column : Column Gate} {e : LoweringError}
      (failed : (hole.fill column).slices = .error e) : (hole.fill column).lower = .error e := by
    rw [Circuit.lower_eq, failed]
    rfl
  -- What stands around the hole is chosen before the column, also where it is not lowered.
  have result (x : Except LoweringError (List Slice)) : ∃ xs, ∀ ys, x = .ok ys → ys = xs := by
    cases x with
    | error e =>
      refine ⟨[], fun ys same => ?_⟩
      cases same
    | ok xs => exact ⟨xs, fun ys same => (Except.ok.inj same).symm⟩
  obtain ⟨earlier, isBefore⟩ := result before
  obtain ⟨later, isAfter⟩ := result after
  refine ⟨earlier.length, numberSlices 0 earlier, numberSlices earlier.length later, ?_, ?_, ?_⟩
  · intro i inside
    simpa using (column_of_mem_numberSlices inside).2
  · exact fun i inside => (column_of_mem_numberSlices inside).1
  intro column anti
  have own := parts column
  have other := parts (Column.positive on column)
  rw [lowerColumn_positive control anti] at own
  cases before with
  | error e => exact .inl ⟨e, lower_error own, lower_error other⟩
  | ok before =>
    obtain rfl := isBefore before rfl
    cases lowered : lowerColumn hole.before.length hole.first (Column.positive on column) with
    | error e =>
      rw [lowered] at own other
      exact .inl ⟨e, lower_error own, lower_error other⟩
    | ok slices =>
      rw [lowered] at own other
      cases after with
      | error e => exact .inl ⟨e, lower_error own, lower_error other⟩
      | ok after =>
        obtain rfl := isAfter after rfl
        obtain ⟨inner, rfl, alone⟩ := Circuit.exists_slices_single hole.wires lowered
        refine .inr ⟨_, Circuit.lower_eq_ok.mpr ⟨inner, alone, rfl⟩, ?_, ?_⟩
        · refine Circuit.lower_eq_ok.mpr ⟨_, other, ?_⟩
          rw [Circuit.numColumns_of_slices alone, Program.ofSlices, numberSlices_between]
          rfl
        · refine Circuit.lower_eq_ok.mpr ⟨_, own, ?_⟩
          rw [Circuit.numColumns_of_slices alone, Program.ofSlices, numberSlices_flips]
          rfl

/-- Two flips of every wire are more than the positive column gives. -/
theorem FlipsAround.length_eq (flips : hole.FlipsAround on) {column : Column Gate}
    (anti : Column.antiRows column ≠ []) {p q : Program} (own : (hole.fill column).lower = .ok p)
    (other : (hole.fill (Column.positive on column)).lower = .ok q) :
    p.instructions.length = q.instructions.length + 2 * (Column.antiRows column).length := by
  obtain ⟨start, before, after, -, -, each⟩ := flips
  obtain ⟨e, failed, -⟩ | ⟨r, -, positive, sandwich⟩ := each column anti
  · cases failed.symm.trans own
  · cases positive.symm.trans other
    cases sandwich.symm.trans own
    simp only [List.length_append, List.length_map, numbered, Column.flips]
    omega

/-- **Anti-controls are controls between flips of their wires.** A column with anti-controls is
lowered when the one with controls in their place is, to the flips, the instructions of that one,
and the flips again. So it is in every hole that only circuits in the place of their gates surround;
below a marked gate it does not matter what stands in the hole. Whatever a circuit holds, at any
level, is in a hole. -/
theorem lower_antiControls (control : on.role = .control) :
    (∀ wires column, Column.antiRows column ≠ [] →
      Circuit.lower ⟨wires, [column]⟩ =
        (Circuit.lower ⟨wires, [Column.positive on column]⟩).map fun q =>
          ⟨wires, numbered 0 (Column.flips 0 column) ++ q.instructions.map (·.later 1) ++
            numbered (1 + q.numColumns) (Column.flips 0 column)⟩) ∧
      (∀ hole : Hole, hole.Expanded → hole.FlipsAround on) ∧
      (∀ hole : Hole, ¬ hole.Expanded →
        ∀ column column', (hole.fill column).lower = (hole.fill column').lower) ∧
      ∀ (c : Circuit) (g : Gate), c.Holds g →
        ∃ hole column, fill column hole = c ∧ some g ∈ column := by
  refine ⟨fun wires column anti => Circuit.lower_positive control anti wires, ?_, ?_, ?_⟩
  · exact fun hole expanded => flipsAround_of_expanded control expanded
  · intro hole marked column column'
    rw [Circuit.lower_eq, Circuit.lower_eq, slices_fill_of_marked marked]
    rfl
  · exact fun c g held => exists_of_holds held

/-- Two anti-controls around a NOT, two levels down and between other gates; and a hole below a gate
with an operation of its own. -/
theorem lower_antiControls_two_levels :
    let gate (id : String) : Option Gate := Catalog.find? id
    let on : Gate := Catalog.marker "•" "Control" .control
    let inner : Hole := inside 4 [] [] [none] ((Gate.basic "m" "m").withHeight 3) [] (here 3 [] [])
    let around : Gate := (Gate.basic "n" "n").withHeight 4
    let hole : Hole := inside 5 [[gate "H", none, none, none, none]]
      [[none, none, none, none, gate "X"]] [gate "X"] around [none, none, none] inner
    let marked : Hole := inside 5 [] [] [none] { around with exports := some ⟨.swap, none, [], []⟩ }
      [none, none, none] inner
    let column : Column Gate := [gate "◦", gate "X", gate "◦"]
    let outline (p : Program) := p.instructions.map fun i => (i.op, i.wires, i.column)
    on.role = .control ∧ Column.antiRows column = [0, 2] ∧
      (Circuit.lower ⟨3, [column]⟩).map outline =
        .ok [(.x, [0], 0), (.x, [2], 0), (.ccx, [0, 2, 1], 1), (.x, [0], 2), (.x, [2], 2)] ∧
      hole.Expanded ∧ hole.FlipsAround on ∧
      (hole.fill (Column.positive on column)).lower.map outline =
        .ok [(.h, [0], 0), (.x, [0], 1), (.ccx, [2, 4, 3], 2), (.x, [4], 3)] ∧
      (hole.fill column).lower.map outline =
        .ok [(.h, [0], 0), (.x, [0], 1), (.x, [2], 2), (.x, [4], 2), (.ccx, [2, 4, 3], 3),
          (.x, [2], 4), (.x, [4], 4), (.x, [4], 5)] ∧
      ¬ marked.Expanded ∧ (marked.fill column).lower = (marked.fill []).lower := by
  intro gate on inner around hole marked column outline
  have anti : Column.antiRows column ≠ [] := List.cons_ne_nil 0 [2]
  have expanded : hole.Expanded :=
    ⟨⟨rfl, Bool.false_ne_true⟩, ⟨rfl, Bool.false_ne_true⟩, trivial⟩
  have kept : ¬ marked.Expanded := fun expanded => absurd expanded.1.1 (Option.some_ne_none _)
  have control : on.role = .control := rfl
  obtain ⟨single, flips, constant, -⟩ := lower_antiControls control
  refine ⟨rfl, rfl, ?_, expanded, flips hole expanded, by decide +kernel, by decide +kernel, kept,
    constant marked kept column []⟩
  rw [single 3 column anti]
  decide +kernel

/-- **Below a marked gate the flips are missing**, be it marked with an operation of its own or as a
spacer. -/
theorem not_flipsAround_of_marked :
    let on : Gate := Catalog.marker "•" "Control" .control
    let around : Gate := (Gate.basic "N" "N").withHeight 2
    let exported : Hole := inside 2 [] [] [] { around with exports := some ⟨.cx, none, [], []⟩ }
      [none] (here 2 [] [])
    let inert : Hole := inside 2 [] [] [] { around with inert := true } [none] (here 2 [] [])
    ¬ exported.FlipsAround on ∧ ¬ inert.FlipsAround on := by
  intro on around exported inert
  let column : Column Gate := [Catalog.find? "◦", Catalog.find? "X"]
  have anti : Column.antiRows column ≠ [] := List.cons_ne_nil 0 []
  constructor
  · intro flips
    let p : Program := ⟨2, [⟨{ op := .cx, wires := [0, 1] }, 0⟩]⟩
    have own : (exported.fill column).lower = .ok p := rfl
    have other : (exported.fill (Column.positive on column)).lower = .ok p := rfl
    exact absurd (flips.length_eq anti own other) (by decide)
  · intro flips
    have own : (inert.fill column).lower = .ok ⟨2, []⟩ := rfl
    have other : (inert.fill (Column.positive on column)).lower = .ok ⟨2, []⟩ := rfl
    exact absurd (flips.length_eq anti own other) (by decide)

end Hole

end CircuitGrid
