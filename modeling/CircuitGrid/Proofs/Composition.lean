import CircuitGrid.Proofs.LinkedLowering
import CircuitGrid.Proofs.Lowerable
import CircuitGrid.Proofs.OutputColumns

/-!
# Lowering piece by piece

What a column is lowered to depends on where it stands in two ways only: its wires are counted from
the first wire of its circuit, and errors name the outermost column around it. So a circuit further
down gives the same operations on wires further down, and pieces of a circuit can be lowered by
themselves and put together by shifting columns and wires.

* `Operation.below`, `Instruction.below`, `Instruction.later`: the same on wires further down, and
  in a later column;
* **`lowerColumn_below`**: a column further down, and `lowerColumns_below` for a whole circuit;
* `Circuit.slices_followedBy`, `Circuit.slices_nested`: the slices of the pieces of a circuit;
* **`Circuit.lower_followedBy`**: one circuit after the other, and a nested circuit between two.
-/

namespace CircuitGrid

/-! ## Further down and later -/

/-- The operation on wires that are further down. -/
def Operation.below (wires : Nat) (o : Operation) : Operation :=
  { o with wires := o.wires.map (· + wires) }

/-- The operations of a slice on wires that are further down. -/
def Slice.below (wires : Nat) (slice : Slice) : Slice := slice.map (·.below wires)

namespace Instruction

/-- The instruction on wires that are further down. -/
def below (wires : Nat) (i : Instruction) : Instruction :=
  { i with wires := i.wires.map (· + wires) }

/-- The instruction some columns later. -/
def later (columns : Nat) (i : Instruction) : Instruction :=
  { i with column := i.column + columns }

end Instruction

/-- The frame on wires that are further down. -/
def Frame.below (wires : Nat) (frame : Frame) : Frame :=
  ⟨frame.controls.map fun c => (c.1 + wires, c.2), frame.swaps.map (· + wires)⟩

theorem Operation.below_zero : Operation.below 0 = id := by
  funext o
  simp [below]

theorem Slice.below_zero : Slice.below 0 = id := by
  funext slice
  rw [below, Operation.below_zero, List.map_id]
  rfl

theorem range'_below (row first offset height : Nat) :
    List.range' (row + (first + offset)) height =
      (List.range' (row + first) height).map (· + offset) := by
  rw [← Nat.add_assoc, Nat.add_comm _ offset, ← List.map_add_range']
  simp only [Nat.add_comm offset]

/-! ## Frames further down -/

namespace Column

variable {first offset : Nat} {column : Column Gate}

theorem conditions_below : conditions (first + offset) column =
    (conditions first column).map fun c => (c.1 + offset, c.2) := by
  simp [conditions, List.map_filterMap, Nat.add_assoc, Function.comp_def]

theorem swapWires_below :
    swapWires (first + offset) column = (swapWires first column).map (· + offset) := by
  simp [swapWires, Nat.add_assoc]

end Column

namespace Frame

variable {source source' first offset : Nat} {column : Column Gate} {frame : Frame}

theorem ofColumn_below (framed : ofColumn source first column = .ok frame) :
    ofColumn source' (first + offset) column = .ok (frame.below offset) := by
  obtain ⟨plain, rfl, few, paired, single⟩ := ofColumn_eq_ok.mp framed
  refine ofColumn_eq_ok.mpr ⟨plain, ?_, ?_, ?_, ?_⟩
  · rw [Column.conditions_below, Column.swapWires_below, below]
  · simpa [below] using few
  · simpa [below] using paired
  · simpa [below] using single

theorem flips_below : (frame.below offset).flips = frame.flips.map (Slice.below offset) := by
  have anti : (frame.below offset).controls.filter (!·.2) =
      (frame.controls.filter (!·.2)).map fun c => (c.1 + offset, c.2) := by
    rw [below, List.filter_map]
    rfl
  unfold flips
  rw [anti]
  cases frame.controls.filter (!·.2) with
  | nil => rfl
  | cons c rest => simp [Slice.below, Operation.below, Function.comp_def]

theorem swap_below : (frame.below offset).swap = frame.swap.map (Slice.below offset) := by
  obtain ⟨controls, swaps⟩ := frame
  cases swaps <;> cases controls <;> rfl

theorem wrap_below {payload : List Slice} :
    (frame.below offset).wrap (payload.map (Slice.below offset)) =
      (frame.wrap payload).map (Slice.below offset) := by
  simp only [wrap, flips_below, swap_below, List.map_append]

end Frame

/-! ## Columns further down -/

section

variable {source first row : Nat} {column : Column Gate} {g : Gate} {slices : List Slice}
  (source' offset : Nat)

/-- A payload without controls further down, if the circuit in it is lowered so. -/
theorem lowerGate_below (lowered : lowerGate source first row g = .ok slices)
    (inside : ∀ body, g.body? = some body → ∀ slices,
      lowerCircuit source (row + first) body = .ok slices →
        lowerCircuit source' (row + first + offset) body = .ok (slices.map (Slice.below offset))) :
    lowerGate source' (first + offset) row g = .ok (slices.map (Slice.below offset)) := by
  by_cases nonLocal : ∃ p, g.role = .nonLocal p
  · obtain ⟨p, role⟩ := nonLocal
    rw [lowerGate_of_nonLocal role] at lowered ⊢
    cases lowered
    simp [Slice.below, Operation.below, Nat.add_assoc]
  have role : ∀ p, g.role ≠ .nonLocal p := fun p is => nonLocal ⟨p, is⟩
  cases exports : g.exports with
  | some e =>
    rw [lowerGate_of_exports role exports] at lowered ⊢
    split at lowered
    · next arity =>
      cases lowered
      rw [if_pos arity, range'_below]
      rfl
    · cases lowered
  | none =>
    cases nested : g.body? with
    | some body =>
      rw [lowerGate_of_nested (Gate.role_of_body? nested) exports] at lowered ⊢
      rw [← Nat.add_assoc]
      exact inside body nested slices lowered
    | none =>
      rw [lowerGate_of_none role exports nested] at lowered
      cases lowered

theorem underControl_below {control : Nat} {slice : Slice}
    (lowered : underControl source first control row g = .ok slice) :
    underControl source' (first + offset) (control + offset) row g = .ok (slice.below offset) := by
  unfold underControl at lowered
  split at lowered
  · cases lowered
  · cases lowered
  · next e exports other =>
    split at lowered
    · next op known =>
      split at lowered
      · next arity =>
        cases lowered
        rw [underControl_of_controlled (Gate.body?_eq_none other) exports known arity, range'_below]
        rfl
      · cases lowered
    · cases lowered

theorem underControls_below {a b : Nat} {slice : Slice}
    (lowered : underControls source first a b row g = .ok slice) :
    underControls source' (first + offset) (a + offset) (b + offset) row g =
      .ok (slice.below offset) := by
  unfold underControls at lowered ⊢
  split at lowered
  · next plain =>
    cases lowered
    rw [if_pos plain, ← Nat.add_assoc]
    rfl
  · cases lowered

theorem lowerPayload_below {controls : List (Nat × Bool)}
    (lowered : lowerPayload source first controls column = .ok slices)
    (inside : ∀ row g body, (row, g) ∈ Column.payload column → g.body? = some body → ∀ slices,
      lowerCircuit source (row + first) body = .ok slices →
        lowerCircuit source' (row + first + offset) body = .ok (slices.map (Slice.below offset))) :
    lowerPayload source' (first + offset) (controls.map fun c => (c.1 + offset, c.2)) column =
      .ok (slices.map (Slice.below offset)) := by
  match controls with
  | [] =>
    simp only [lowerPayload, Except.bind_eq_ok, pure, Except.pure, Except.ok.injEq] at lowered
    obtain ⟨parts, each, rfl⟩ := lowered
    have moved := Except.mapM_eq_map (h := List.map (Slice.below offset)) each
      (fun q isPayload part found => lowerGate_below source' offset found
        fun body => inside q.1 q.2 body isPayload)
    rw [List.map_nil, lowerPayload, moved, Except.ok_bind, List.map_flatten]
    rfl
  | [control] =>
    exact Except.mapM_eq_map lowered fun q _ slice found => underControl_below source' offset found
  | first :: second :: _ =>
    exact Except.mapM_eq_map lowered fun q _ slice found => underControls_below source' offset found

theorem lowerColumns_below {columns : List (Column Gate)}
    (lowered : lowerColumns source first columns = .ok slices)
    (each : ∀ column ∈ columns, ∀ part, lowerColumn source first column = .ok part →
      lowerColumn source' (first + offset) column = .ok (part.map (Slice.below offset))) :
    lowerColumns source' (first + offset) columns = .ok (slices.map (Slice.below offset)) := by
  rw [lowerColumns_eq] at lowered ⊢
  simp only [Except.bind_eq_ok, pure, Except.pure, Except.ok.injEq] at lowered
  obtain ⟨parts, found, rfl⟩ := lowered
  rw [Except.mapM_eq_map found each, Except.ok_bind, List.map_flatten]
  rfl

/-- **A column further down gives the same operations further down.** -/
theorem lowerColumn_below (lowered : lowerColumn source first column = .ok slices) :
    lowerColumn source' (first + offset) column = .ok (slices.map (Slice.below offset)) := by
  -- The induction is on a circuit around the column; the circuits in its payload are nested there.
  suffices all : ∀ c : Circuit, ∀ column ∈ c.columns, ∀ first slices,
      lowerColumn source first column = .ok slices →
        lowerColumn source' (first + offset) column = .ok (slices.map (Slice.below offset)) from
    all ⟨0, [column]⟩ column List.mem_cons_self first slices lowered
  clear lowered
  intro c
  induction c using Circuit.nesting_induction with
  | step c ih =>
    intro column isColumn first slices lowered
    simp only [lowerColumn, Except.bind_eq_ok, pure, Except.pure, Except.ok.injEq] at lowered
    obtain ⟨frame, framed, payload, lowered, rfl⟩ := lowered
    have payloads : lowerPayload source' (first + offset) (frame.below offset).controls column =
        .ok (payload.map (Slice.below offset)) := by
      refine lowerPayload_below source' offset lowered
        fun row g body isPayload nested slices lowered => ?_
      have here : c.At g :=
        ⟨column, isColumn, Column.mem_of_placed (List.mem_of_mem_filter isPayload)⟩
      rw [lowerCircuit_eq] at lowered ⊢
      exact lowerColumns_below source' offset lowered
        fun inner isInner => ih g here body nested inner isInner _
    rw [lowerColumn, Frame.ofColumn_below framed, Except.ok_bind, payloads, Except.ok_bind,
      ← Frame.wrap_below]
    rfl

end

/-! ## Outermost columns -/

section

variable {index : Nat} {columns : List (Column Gate)} {slices : List Slice}

/-- The outermost columns give the same operations wherever they stand in a circuit. -/
theorem lowerFrom_of_ok (lowered : lowerFrom index columns = .ok slices) (index' : Nat) :
    lowerFrom index' columns = .ok slices := by
  induction columns generalizing index index' slices with
  | nil => exact lowered
  | cons column rest ih =>
    simp only [lowerFrom_cons, Except.bind_eq_ok, pure, Except.pure, Except.ok.injEq] at lowered ⊢
    obtain ⟨here, first, others, after, rfl⟩ := lowered
    have moved := lowerColumn_below index' 0 first
    rw [Slice.below_zero, List.map_id] at moved
    exact ⟨here, moved, others, ih after _, rfl⟩

/-- A nested circuit gives the operations of the circuit by itself further down. -/
theorem lowerColumns_of_lowerFrom (lowered : lowerFrom index columns = .ok slices)
    (source offset : Nat) :
    lowerColumns source offset columns = .ok (slices.map (Slice.below offset)) := by
  induction columns generalizing index slices with
  | nil =>
    cases lowered
    rfl
  | cons column rest ih =>
    simp only [lowerFrom_cons, Except.bind_eq_ok, pure, Except.pure, Except.ok.injEq] at lowered
    obtain ⟨here, first, others, after, rfl⟩ := lowered
    have moved := lowerColumn_below source offset first
    rw [Nat.zero_add] at moved
    rw [lowerColumns_cons, moved, ih after, List.map_append]
    rfl

end

/-! ## Numbered slices -/

section

variable (column : Nat) (slices : List Slice)

theorem numberSlices_append (after : List Slice) : numberSlices column (slices ++ after) =
    numberSlices column slices ++ numberSlices (column + slices.length) after := by
  induction slices generalizing column with
  | nil => rfl
  | cons slice rest ih =>
    rw [List.cons_append, numberSlices, numberSlices, ih, List.append_assoc, List.length_cons,
      Nat.add_right_comm, Nat.add_assoc]

theorem numberSlices_later (columns : Nat) : numberSlices (column + columns) slices =
    (numberSlices column slices).map (·.later columns) := by
  induction slices generalizing column with
  | nil => rfl
  | cons slice rest ih =>
    rw [numberSlices, numberSlices, Nat.add_right_comm, ih, List.map_append, List.map_map]
    rfl

theorem numberSlices_below (wires : Nat) : numberSlices column (slices.map (Slice.below wires)) =
    (numberSlices column slices).map (·.below wires) := by
  induction slices generalizing column with
  | nil => rfl
  | cons slice rest ih =>
    rw [List.map_cons, numberSlices, numberSlices, ih, List.map_append, List.map_map, Slice.below,
      List.map_map]
    rfl

/-- Numbered slices on wires further down, from a later column on. -/
theorem numberSlices_moved (wires : Nat) : numberSlices column (slices.map (Slice.below wires)) =
    (numberSlices 0 slices).map fun i => (i.below wires).later column := by
  have later := numberSlices_later 0 (slices.map (Slice.below wires)) column
  rw [Nat.zero_add] at later
  rw [later, numberSlices_below, List.map_map]
  rfl

end

/-! ## Nested circuits -/

section

variable {column : Column Gate} {row : Nat} {g : Gate} {body : Circuit}
  (only : Column.placed column = [(row, g)]) (nested : g.body? = some body)
  (exports : g.exports = none) (acts : ¬ g.inert)
include only nested exports acts

/-- A column that holds just a nested circuit is lowered to that circuit. -/
theorem lowerColumn_of_body (source offset : Nat) : lowerColumn source offset column =
    lowerColumns source (row + offset) body.columns := by
  have role := Gate.role_of_body? nested
  have isPayload : g.isPayload := by
    simp [Gate.isPayload, Gate.hasNoEffect, Gate.isSwapHalf, Gate.isControl, role, acts]
  rw [lowerColumn_of_single (by rw [only]; exact List.mem_cons_self) isPayload,
    lowerGate_of_nested role exports, lowerCircuit_eq]
  intro q inside
  rw [only, List.mem_singleton] at inside
  exact .inl inside

theorem lowerable_iff_of_body :
    Column.Lowerable column ↔ ∀ inner ∈ body.columns, Column.Lowerable inner := by
  have here : (∃ slices, lowerColumn 0 0 column = .ok slices) ↔ Column.Lowerable column :=
    lowerColumn_ok_iff
  rw [← here, lowerColumn_of_body only nested exports acts, lowerColumns_ok_iff]
  exact forall₂_congr fun _ _ => lowerColumn_ok_iff

end

/-! ## Circuits -/

namespace Circuit

variable {a b c : Circuit} {p : Program}

/-- The columns of a circuit and after them those of another one. -/
def followedBy (a b : Circuit) : Circuit := ⟨a.wires, a.columns ++ b.columns⟩

/-- Every slice of a circuit takes a column. -/
theorem numColumns_of_slices {slices : List Slice} (lowered : c.slices = .ok slices) (wires : Nat) :
    (Program.ofSlices wires slices).numColumns = slices.length :=
  numColumns_ofSlices (fun slice h => (regular_of_lowerFrom lowered slice h).ne_nil) wires

theorem slices_followedBy {before after : List Slice} (first : a.slices = .ok before)
    (second : b.slices = .ok after) : (a.followedBy b).slices = .ok (before ++ after) := by
  rw [slices] at first second ⊢
  rw [followedBy, lowerFrom_append, first, lowerFrom_of_ok second]
  rfl

theorem lower_followedBy_ok_iff : (∃ p, (a.followedBy b).lower = .ok p) ↔
    (∃ p, a.lower = .ok p) ∧ ∃ q, b.lower = .ok q := by
  simp only [lower_ok_iff, followedBy, List.forall_mem_append]

/-- A column that holds just a nested circuit gives its slices further down. -/
theorem slices_nested {column : Column Gate} {row : Nat} {g : Gate} {body : Circuit}
    {inside : List Slice} (only : Column.placed column = [(row, g)]) (nested : g.body? = some body)
    (exports : g.exports = none) (acts : ¬ g.inert) (lowered : body.slices = .ok inside)
    (wires : Nat) : slices ⟨wires, [column]⟩ = .ok (inside.map (Slice.below row)) := by
  rw [slices, lowerFrom_cons, lowerColumn_of_body only nested exports acts,
    lowerColumns_of_lowerFrom lowered, lowerFrom]
  exact congrArg Except.ok (List.append_nil _)

/-- **Circuits are lowered piece by piece.** A circuit that is followed by another one is lowered
when both are, to the instructions of the first one and after them those of the second one in later
columns. A circuit, a column with nothing but a nested circuit that is put in its place, and a
second circuit are lowered when all three circuits are, to their instructions one after the other,
those of the nested circuit on the wires from its row on. -/
theorem lower_followedBy (a b : Circuit) :
    ((∃ p, (a.followedBy b).lower = .ok p) ↔ (∃ p, a.lower = .ok p) ∧ ∃ q, b.lower = .ok q) ∧
      (∀ p q, a.lower = .ok p → b.lower = .ok q → (a.followedBy b).lower =
        .ok ⟨a.wires, p.instructions ++ q.instructions.map (·.later p.numColumns)⟩) ∧
      ∀ column row g body, Column.placed column = [(row, g)] → g.body? = some body →
        g.exports = none → ¬ g.inert →
          ((∃ p, ((a.followedBy ⟨a.wires, [column]⟩).followedBy b).lower = .ok p) ↔
            (∃ p, a.lower = .ok p) ∧ (∃ q, body.lower = .ok q) ∧ ∃ r, b.lower = .ok r) ∧
          ∀ p q r, a.lower = .ok p → body.lower = .ok q → b.lower = .ok r →
            ((a.followedBy ⟨a.wires, [column]⟩).followedBy b).lower = .ok ⟨a.wires,
              p.instructions ++
                q.instructions.map (fun i => (i.below row).later p.numColumns) ++
                r.instructions.map (·.later (p.numColumns + q.numColumns))⟩ := by
  refine ⟨lower_followedBy_ok_iff, fun p q first second => ?_, ?_⟩
  · obtain ⟨before, slices, rfl⟩ := lower_eq_ok.mp first
    obtain ⟨after, slices', rfl⟩ := lower_eq_ok.mp second
    refine lower_eq_ok.mpr ⟨_, slices_followedBy slices slices', ?_⟩
    rw [numColumns_of_slices slices, Program.ofSlices, numberSlices_append, numberSlices_later]
    rfl
  intro column row g body only nested exports acts
  constructor
  · rw [lower_followedBy_ok_iff, lower_followedBy_ok_iff, and_assoc, lower_ok_iff (c := body),
      lower_ok_iff (c := ⟨a.wires, [column]⟩), List.forall_mem_singleton,
      lowerable_iff_of_body only nested exports acts]
  · intro p q r first second third
    obtain ⟨before, slices, rfl⟩ := lower_eq_ok.mp first
    obtain ⟨inside, slices', rfl⟩ := lower_eq_ok.mp second
    obtain ⟨after, slices'', rfl⟩ := lower_eq_ok.mp third
    have single := slices_nested only nested exports acts slices' a.wires
    refine lower_eq_ok.mpr ⟨_, slices_followedBy (slices_followedBy slices single) slices'', ?_⟩
    rw [numColumns_of_slices slices, numColumns_of_slices slices', Program.ofSlices,
      numberSlices_append, numberSlices_later, List.length_append, List.length_map,
      numberSlices_append, numberSlices_later, numberSlices_below, List.map_map]
    rfl

/-- A placeholder and a nested circuit in a nested circuit, between flips and a swap. -/
theorem lower_followedBy_nested :
    let gate (id : String) : Option Gate := Catalog.find? id
    let inner : Gate := .nested "h" "h" ⟨1, [[gate "H"]]⟩
    let body : Circuit := ⟨3, [[some (.nonLocal "~nlcx_0_0" ⟨.cx, 2, 0, (4, 5)⟩), some inner, none]]⟩
    let g : Gate := .nested "n" "n" body
    let column : Column Gate := [none, some g, none, none]
    let a : Circuit := ⟨4, [[gate "◦", gate "X", none, none]]⟩
    let b : Circuit := ⟨4, [[gate "Swap", none, none, gate "Swap"]]⟩
    Column.placed column = [(1, g)] ∧ g.body? = some body ∧ g.exports = none ∧ ¬ g.inert ∧
      ∃ p q r, a.lower = .ok p ∧ body.lower = .ok q ∧ b.lower = .ok r ∧
        ((a.followedBy ⟨4, [column]⟩).followedBy b).lower = .ok ⟨4,
          p.instructions ++ q.instructions.map (fun i => (i.below 1).later p.numColumns) ++
            r.instructions.map (·.later (p.numColumns + q.numColumns))⟩ ∧
        (q.instructions.map fun i => (i.op, i.wires, i.column)) = [(.cx, [2, 0], 0), (.h, [1], 1)] ∧
        (q.instructions.map fun i => ((i.below 1).later p.numColumns).wires) = [[3, 1], [2]] ∧
        p.numColumns = 3 ∧ q.numColumns = 2 := by
  intro gate inner body g column a b
  obtain ⟨p, first⟩ : ∃ p, a.lower = .ok p := ⟨_, rfl⟩
  obtain ⟨q, second⟩ : ∃ q, body.lower = .ok q := ⟨_, rfl⟩
  obtain ⟨r, third⟩ : ∃ r, b.lower = .ok r := ⟨_, rfl⟩
  have whole := ((lower_followedBy a b).2.2 column 1 g body rfl rfl rfl Bool.false_ne_true).2
    p q r first second third
  refine ⟨rfl, rfl, rfl, Bool.false_ne_true, p, q, r, first, second, third, whole, ?_⟩
  cases first
  cases second
  exact ⟨rfl, rfl, rfl, rfl⟩

/-- **A nested circuit that is marked as a spacer is passed over**, and its instructions are
missing. -/
theorem not_lower_followedBy_inert :
    ¬ ∀ (a b : Circuit) (column : Column Gate) (row : Nat) (g : Gate) (body : Circuit),
      Column.placed column = [(row, g)] → g.body? = some body → g.exports = none →
        ∀ p q r, a.lower = .ok p → body.lower = .ok q → b.lower = .ok r →
          ((a.followedBy ⟨a.wires, [column]⟩).followedBy b).lower = .ok ⟨a.wires,
            p.instructions ++ q.instructions.map (fun i => (i.below row).later p.numColumns) ++
              r.instructions.map (·.later (p.numColumns + q.numColumns))⟩ := by
  intro all
  let body : Circuit := ⟨1, [[Catalog.find? "X"]]⟩
  let g : Gate := { Gate.nested "n" "n" body with inert := true }
  have whole := all (Grid.empty 1) (Grid.empty 1) [some g] 0 g body rfl rfl rfl
    ⟨1, []⟩ ⟨1, [⟨{ op := .x, wires := [0] }, 0⟩]⟩ ⟨1, []⟩ rfl rfl rfl
  cases whole

end Circuit

end CircuitGrid
