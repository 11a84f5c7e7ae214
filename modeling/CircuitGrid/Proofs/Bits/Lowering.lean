import CircuitGrid.Proofs.Lowering
import CircuitGrid.Proofs.Bits.Meaning

/-!
# Lowering keeps what a circuit does to bits

The program of a well-formed circuit of classical cells does to bits what the circuit does. One
column is lowered to its frame around its payload, and neither touches the wires of the controls.
Nested circuits come by induction over the nesting.

* `Frame.run?_wrap`: a frame runs its payload under the conditions of its column;
* `run?_lowerColumn`: one column;
* **`Circuit.run?_lower`**: the whole circuit, marks being heeded.
-/

namespace CircuitGrid

open Bits Operation

variable {source offset : Nat} {column : Column Gate}

/-! ## What lowering reads off the cells -/

namespace Gate

variable {g : Gate}

theorem controlBit_eq (classical : g.isClassical) :
    g.controlBit = if g.isCell "•" then some true else if g.isCell "◦" then some false
      else none := by
  obtain h | h | h | h | h | h | ⟨body, role, -⟩ | ⟨payload, role, -, -⟩ := classical_cases classical
  · simp [controlBit, role_of_on h, h]
  · simp [controlBit, role_of_off h, h, isCell_eq_false h]
  · simp [controlBit, (data_of_not h).1, isCell_eq_false h]
  · simp [controlBit, (data_of_pair h).1, isCell_eq_false h]
  · simp [controlBit, role_of_swap h, isCell_eq_false h]
  · simp [controlBit, (inert_of_spacer h).1, isCell_eq_false h]
  · simp [controlBit, role, isCell_of_nested role]
  · simp [controlBit, role, isCell_of_nonLocal role]

theorem isSwapHalf_eq (classical : g.isClassical) : g.isSwapHalf = g.isCell "Swap" := by
  obtain h | h | h | h | h | h | ⟨body, role, -⟩ | ⟨payload, role, -, -⟩ := classical_cases classical
  · simp [isSwapHalf, role_of_on h, isCell_eq_false h]
  · simp [isSwapHalf, role_of_off h, isCell_eq_false h]
  · simp [isSwapHalf, (data_of_not h).1, isCell_eq_false h]
  · simp [isSwapHalf, (data_of_pair h).1, isCell_eq_false h]
  · simp [isSwapHalf, role_of_swap h, h]
  · simp [isSwapHalf, (inert_of_spacer h).1, isCell_eq_false h]
  · simp [isSwapHalf, role, isCell_of_nested role]
  · simp [isSwapHalf, role, isCell_of_nonLocal role]

theorem isPayload_iff (classical : g.isClassical) :
    g.isPayload ↔ g.isCell "X" ∨ g.isCell "CNOT" ∨
      (∃ body, g.role = .nested body ∧ g.exports = none ∧ g.inert = false) ∨
        ∃ payload, g.role = .nonLocal payload ∧ payload.kind = .cx ∧ g.exports = none ∧
          g.inert = false := by
  obtain h | h | h | h | h | h | ⟨body, role, none⟩ | ⟨payload, role, kind, none⟩ :=
    classical_cases classical
  · simp [isPayload, isSwapHalf, hasNoEffect, isControl, role_of_on h, isCell_eq_false h]
  · simp [isPayload, isSwapHalf, hasNoEffect, isControl, role_of_off h, isCell_eq_false h]
  · obtain ⟨role, -, inert, -⟩ := data_of_not h
    simp [isPayload, isSwapHalf, hasNoEffect, isControl, role, inert, h]
  · obtain ⟨role, -, inert, -⟩ := data_of_pair h
    simp [isPayload, isSwapHalf, hasNoEffect, isControl, role, inert, h]
  · simp [isPayload, isSwapHalf, role_of_swap h, isCell_eq_false h]
  · obtain ⟨role, inert⟩ := inert_of_spacer h
    simp [isPayload, hasNoEffect, role, inert, isCell_eq_false h]
  · simp [isPayload, isSwapHalf, hasNoEffect, isControl, role, none, isCell_of_nested role]
  · simp [isPayload, isSwapHalf, hasNoEffect, isControl, role, kind, none,
      isCell_of_nonLocal role]

end Gate

/-! ## The frame of a column -/

namespace Column

variable (classical : ∀ p ∈ placed column, p.2.isClassical)
include classical

theorem meets_conditions (b : Bits) : meets (conditions offset column) b = isMet offset column b := by
  rw [meets, isMet, Bool.eq_iff_iff]
  simp only [List.all_eq_true, Bool.and_eq_true, mem_rowsOf]
  constructor
  · intro met
    constructor
    · rintro row ⟨g, h, cell⟩
      have bit : g.controlBit = some true := by
        rw [Gate.controlBit_eq (classical _ h), if_pos cell]
      simpa using met (row + offset, true) (mem_conditions.mpr ⟨_, h, bit, rfl⟩)
    · rintro row ⟨g, h, cell⟩
      have bit : g.controlBit = some false := by
        rw [Gate.controlBit_eq (classical _ h), if_pos cell,
          Gate.isCell_eq_false cell (by decide)]
        rfl
      simpa using met (row + offset, false) (mem_conditions.mpr ⟨_, h, bit, rfl⟩)
  · rintro ⟨on, off⟩ ⟨wire, bit⟩ h
    obtain ⟨p, inside, found, rfl⟩ := mem_conditions.mp h
    rw [Gate.controlBit_eq (classical p inside)] at found
    split at found
    · next cell =>
      cases found
      simpa using on p.1 ⟨p.2, inside, cell⟩
    · split at found
      · next cell =>
        cases found
        simpa using off p.1 ⟨p.2, inside, cell⟩
      · cases found

theorem isControlled_iff : isControlled column ↔ conditions offset column ≠ [] := by
  have empty : conditions offset column = [] ↔ rowsOf "•" column = [] ∧ rowsOf "◦" column = [] := by
    simp only [conditions, rowsOf, List.filterMap_eq_nil_iff, List.map_eq_nil_iff,
      List.filter_eq_nil_iff, Option.map_eq_none_iff]
    rw [← forall₂_and]
    refine forall₂_congr fun p h => ?_
    rw [Gate.controlBit_eq (classical p h)]
    split
    · next cell => simp [cell]
    · next on =>
      split
      · next cell => simp [cell]
      · next off => simp [on, off]
  rw [Ne, empty, isControlled]
  simp

theorem swapWires_eq : swapWires offset column = (rowsOf "Swap" column).map (· + offset) := by
  rw [swapWires, rowsOf, List.map_map,
    List.filter_congr fun p h => Gate.isSwapHalf_eq (classical p h)]
  rfl

end Column

theorem Frame.run?_flips {frame : Frame} (nodup : (frame.controls.map (·.1)).Nodup) (b : Bits) :
    run? frame.flips.flatten b = some (negate (antiWires frame.controls) b) := by
  have flat : frame.flips.flatten =
      (frame.controls.filter (!·.2)).map fun c => { op := .x, wires := [c.1] } := by
    unfold flips
    split
    · next none => rw [none]; rfl
    · exact List.flatten_singleton
  have sub : (antiWires frame.controls).Nodup := nodup.sublist (List.filter_sublist.map _)
  rw [flat, run?_map (f := fun c => Bits.flip c.1) (fun _ _ _ => rfl), ← foldl_flip sub, antiWires,
    List.foldl_map]

/-- **A frame runs its swap and its payload under the conditions of its column**, if neither touches
the wires of the conditions. -/
theorem Frame.run?_wrap {frame : Frame} {payload : List Slice} {S : Set Nat} {f g : Bits → Bits}
    (nodup : (frame.controls.map (·.1)).Nodup) (apart : ∀ c ∈ frame.controls, c.1 ∉ S)
    (hf : Within S f) (hg : Within S g)
    (runSwap : ∀ b, run? frame.swap.flatten b = some (when (frame.controls.map (·.1)) f b))
    (runPayload : ∀ b, run? payload.flatten b = some (when (frame.controls.map (·.1)) g b))
    (b : Bits) :
    run? (frame.wrap payload).flatten b =
      some (if meets frame.controls b then g (f b) else b) := by
  have keeps (b : Bits) : ∀ c ∈ frame.controls.map (·.1), f b c = b c := by
    intro wire inside
    obtain ⟨c, h, rfl⟩ := List.mem_map.mp inside
    exact hf.outside b c.1 (apart c h)
  rw [wrap]
  simp only [List.flatten_append, run?_append, run?_flips nodup, Option.bind_some, runSwap,
    runPayload]
  rw [when_when keeps, sandwich nodup (hg.comp hf) apart]

/-! ## Payloads -/

/-- The circuit in a gate runs as what it does to bits, wherever it is put. -/
def Gate.RunsInside (g : Gate) : Prop :=
  ∀ body, g.body? = some body → ∀ source wire slices, lowerCircuit source wire body = .ok slices →
    ∀ b, run? slices.flatten b = some (Grid.act true wire body b)

/-- The cells that are no payload do nothing by themselves. -/
theorem cellAt_of_not_payload {p : Nat × Gate} (classical : p.2.isClassical)
    (other : ¬ p.2.isPayload) (b : Bits) : cellAt true offset p b = b := by
  obtain ⟨row, g⟩ := p
  change g.isClassical at classical
  change ¬ g.isPayload at other
  rw [Gate.isPayload_iff classical] at other
  simp only [not_or, not_exists, not_and, Bool.not_eq_true] at other
  obtain ⟨notFlip, notPair, notNested, notLink⟩ := other
  obtain h | h | h | h | h | h | ⟨body, role, exports⟩ | ⟨payload, role, kind, exports⟩ :=
    Gate.classical_cases classical
  · have role := Gate.role_of_on h
    exact cellAt_of_marker (by simp [role]) (by simp [role]) notFlip notPair b
  · have role := Gate.role_of_off h
    exact cellAt_of_marker (by simp [role]) (by simp [role]) notFlip notPair b
  · simp [h] at notFlip
  · simp [h] at notPair
  · have role := Gate.role_of_swap h
    exact cellAt_of_marker (by simp [role]) (by simp [role]) notFlip notPair b
  · have role := (Gate.inert_of_spacer h).1
    exact cellAt_of_marker (by simp [role]) (by simp [role]) notFlip notPair b
  · have inert := notNested body role exports
    simp only [Bool.not_eq_false] at inert
    rw [cellAt_of_nested role, inert]
    rfl
  · have inert := notLink payload role kind exports
    simp only [Bool.not_eq_false] at inert
    rw [cellAt_of_nonLocal role, inert]
    rfl

theorem run?_lowerGate {row : Nat} {g : Gate} (classical : g.isClassical) (payload : g.isPayload)
    (inside : g.RunsInside) {slices : List Slice}
    (h : lowerGate source offset row g = .ok slices) (b : Bits) :
    run? slices.flatten b = some (cellAt true offset (row, g) b) := by
  obtain cell | cell | ⟨body, role, exports, inert⟩ | ⟨link, role, kind, exports, inert⟩ :=
    (Gate.isPayload_iff classical).mp payload
  · obtain ⟨role, height, -, exports⟩ := Gate.data_of_not cell
    rw [lowerGate_of_exports (by simp [role]) exports, height, if_pos (by rfl)] at h
    cases h
    rw [cellAt_of_not cell]
    rfl
  · obtain ⟨role, height, -, exports⟩ := Gate.data_of_pair cell
    rw [lowerGate_of_exports (by simp [role]) exports, height, if_pos (by rfl)] at h
    cases h
    rw [cellAt_of_pair cell, Nat.add_right_comm row 1 offset]
    rfl
  · rw [lowerGate_of_nested role exports] at h
    rw [cellAt_of_nested role, inert, inside body (by simp [Gate.body?, role]) _ _ _ h]
    rfl
  · rw [lowerGate_of_nonLocal role, kind] at h
    cases h
    rw [cellAt_of_nonLocal role, inert]
    rfl

/-- Under one control every payload is an X cell, which becomes a controlled NOT. -/
theorem run?_underControl {control row : Nat} {g : Gate} (classical : g.isClassical)
    (payload : g.isPayload) {slice : Slice}
    (h : underControl source offset control row g = .ok slice) :
    g.isCell "X" ∧ ∀ b, run? slice b = some (when [control] (Bits.flip (row + offset)) b) := by
  unfold underControl at h
  obtain cell | cell | ⟨body, role, exports, inert⟩ | ⟨link, role, kind, exports, inert⟩ :=
    (Gate.isPayload_iff classical).mp payload
  · obtain ⟨role, height, -, exports⟩ := Gate.data_of_not cell
    simp only [role, exports, height] at h
    cases h
    exact ⟨cell, fun b => rfl⟩
  · obtain ⟨role, height, -, exports⟩ := Gate.data_of_pair cell
    simp [role, exports] at h
  · simp [role, exports] at h
  · simp [role, exports] at h

/-- Under two controls every payload is an X cell, which becomes a Toffoli gate. -/
theorem run?_underControls {first second row : Nat} {g : Gate} (classical : g.isClassical)
    (payload : g.isPayload) {slice : Slice}
    (h : underControls source offset first second row g = .ok slice) :
    g.isCell "X" ∧ ∀ b, run? slice b = some (when [first, second] (Bits.flip (row + offset)) b) := by
  unfold underControls at h
  obtain cell | cell | ⟨body, role, exports, inert⟩ | ⟨link, role, kind, exports, inert⟩ :=
    (Gate.isPayload_iff classical).mp payload
  · split at h
    · cases h
      exact ⟨cell, fun b => rfl⟩
    · cases h
  · obtain ⟨role, height, -, exports⟩ := Gate.data_of_pair cell
    simp [Gate.isPlain, role, exports, height] at h
  · simp [Gate.isPlain, role] at h
  · simp [Gate.isPlain, role] at h

/-! ## Columns -/

section

variable (classical : ∀ p ∈ Column.placed column, p.2.isClassical)
include classical

theorem run?_payload (inside : ∀ p ∈ Column.placed column, p.2.RunsInside)
    {payload : List Slice} (h : lowerPayload source offset [] column = .ok payload) (b : Bits) :
    run? payload.flatten b =
      some ((Column.placed column).foldl (fun b p => cellAt true offset p b) b) := by
  simp only [lowerPayload, Except.bind_eq_ok, Except.mapM_eq_ok, pure, Except.pure,
    Except.ok.injEq] at h
  obtain ⟨parts, lowered, rfl⟩ := h
  have facts : ∀ p ∈ Column.payload column,
      p.2.isClassical ∧ p.2.isPayload ∧ p.2.RunsInside := by
    intro p h
    obtain ⟨placed, payload⟩ := List.mem_filter.mp h
    exact ⟨classical p placed, payload, inside p placed⟩
  have runs : run? parts.flatten.flatten b =
      some ((Column.payload column).foldl (fun b p => cellAt true offset p b) b) := by
    rw [List.flatten_flatten]
    apply run?_flatten
    rw [List.forall₂_map_right_iff]
    refine ((List.forall₂_and_left _ _).mpr ⟨facts, lowered⟩).imp ?_
    rintro p part ⟨⟨classical, payload, inside⟩, lowered⟩
    exact run?_lowerGate classical payload inside lowered
  rw [runs, Column.payload,
    foldl_filter fun p h other => cellAt_of_not_payload (classical p h) other]

/-- The payload of a column with controls flips its X cells under them. -/
theorem run?_payload_under {controls : List Nat} {f : Nat → Gate → Except LoweringError Slice}
    (each : ∀ row g slice, g.isClassical → g.isPayload → f row g = .ok slice →
      g.isCell "X" ∧ ∀ b, run? slice b = some (when controls (Bits.flip (row + offset)) b))
    (apart : ∀ c ∈ controls, ∀ p ∈ Column.placed column, ¬ p.2.isControl →
      c ∉ p.2.wiresAt offset p.1)
    {payload : List Slice}
    (h : (Column.payload column).mapM (fun (row, g) => f row g) = .ok payload) (b : Bits) :
    run? payload.flatten b = some (when controls (Column.flipCells offset column) b) := by
  have facts : ∀ p ∈ Column.payload column, p.2.isClassical ∧ p.2.isPayload := by
    intro p h
    obtain ⟨placed, payload⟩ := List.mem_filter.mp h
    exact ⟨classical p placed, payload⟩
  have runs : run? payload.flatten b =
      some ((Column.payload column).foldl (fun b p => when controls (flipAt offset p) b) b) := by
    apply run?_flatten
    refine ((List.forall₂_and_left _ _).mpr ⟨facts, Except.mapM_eq_ok.mp h⟩).imp ?_
    rintro ⟨row, g⟩ slice ⟨⟨classical, payload⟩, lowered⟩ b
    obtain ⟨cell, runs⟩ := each row g slice classical payload lowered
    have flips : flipAt offset (row, g) = Bits.flip (row + offset) := by
      funext b
      exact if_pos cell
    rw [flips]
    exact runs b
  rw [runs, foldl_when]
  · congr 2
    funext b
    rw [Column.flipCells_eq, Column.payload, foldl_filter]
    intro p h other b
    rw [Gate.isPayload_iff (classical p h), not_or] at other
    exact if_neg other.1
  · intro p h b c inside
    obtain ⟨placed, payload⟩ := List.mem_filter.mp h
    refine (within_flipAt p).outside b c (apart c inside p placed fun control => ?_)
    simp [Gate.isPayload, Gate.hasNoEffect, control] at payload

theorem run?_swap {frame : Frame} (framed : Frame.ofColumn source offset column = .ok frame)
    (b : Bits) :
    run? frame.swap.flatten b =
      some (when (frame.controls.map (·.1)) (Column.exchangePair offset column) b) := by
  obtain ⟨-, rfl, few, paired, free⟩ := Frame.ofColumn_eq_ok.mp framed
  simp only [Column.swapWires_eq classical] at few paired free ⊢
  unfold Column.exchangePair
  generalize Column.conditions offset column = conditions at few free ⊢
  rcases rows : Column.rowsOf "Swap" column with _ | ⟨u, _ | ⟨v, _ | ⟨w, rest⟩⟩⟩
  · simp [Frame.swap, when]
  · simp [rows] at paired
  · rcases conditions with _ | ⟨c, _ | ⟨d, _ | ⟨e, rest⟩⟩⟩
    · rfl
    · rfl
    · simp [rows] at free
    · simp at few
  · simp [rows] at paired

omit classical in
/-- The cells that are no controls leave the wires of the conditions alone. -/
theorem Column.Fits.apart_conditions {wires : Nat} (fits : Column.Fits wires column)
    {c : Nat × Bool} (condition : c ∈ Column.conditions offset column) {q : Nat × Gate}
    (placed : q ∈ Column.placed column) (other : ¬ q.2.isControl) :
    c.1 ∉ q.2.wiresAt offset q.1 := by
  obtain ⟨p, inside, bit, row⟩ := Column.mem_conditions.mp condition
  rintro ⟨r, covers, same⟩
  have own : r = p.1 := by omega
  subst own
  have equal := fits.unique inside placed (fits.own_row p.1 p.2 inside) covers
  rw [← show p.2 = q.2 from congrArg (·.2) equal] at other
  exact other (Gate.isControl_of_controlBit bit)

/-- **A lowered column runs as what the column does to bits.** -/
theorem run?_lowerColumn {wires : Nat} (fits : Column.Fits wires column)
    (confined : ∀ p ∈ Column.placed column, p.2.Confined true)
    (inside : ∀ p ∈ Column.placed column, p.2.RunsInside) {slices : List Slice}
    (h : lowerColumn source offset column = .ok slices) (b : Bits) :
    run? slices.flatten b = some (Column.act true offset column b) := by
  simp only [lowerColumn, Except.bind_eq_ok, pure, Except.pure, Except.ok.injEq] at h
  obtain ⟨frame, framed, payload, lowered, rfl⟩ := h
  have runSwap := run?_swap classical framed
  obtain ⟨-, rfl, few, -, -⟩ := Frame.ofColumn_eq_ok.mp framed
  have nodup := Column.nodup_conditions offset column
  have controlled : Column.isControlled column ↔ Column.conditions offset column ≠ [] :=
    Column.isControlled_iff classical
  have met : meets (Column.conditions offset column) b = Column.isMet offset column b :=
    Column.meets_conditions classical b
  by_cases free : Column.conditions offset column = []
  · -- without controls the frame puts nothing around the payload
    simp only [free] at lowered
    rw [Frame.run?_wrap (f := Column.exchangePair offset column) nodup (by simp [free])
      (within_univ _) (within_univ _) runSwap
      (by simpa [free, when] using run?_payload classical inside lowered)]
    have uncontrolled : Column.isControlled column = false := by simpa [free] using controlled
    rw [Column.act, uncontrolled, fits.foldl_cellAt confined, free]
    rfl
  · -- under controls both parts stay on the wires of the other cells
    let others : Set Nat :=
      { w | ∃ q ∈ Column.placed column, ¬ q.2.isControl ∧ w ∈ q.2.wiresAt offset q.1 }
    have apart (c : Nat × Bool) (h : c ∈ Column.conditions offset column) : c.1 ∉ others := by
      rintro ⟨q, placed, other, covers⟩
      exact fits.apart_conditions h placed other covers
    have swaps : Within others (Column.exchangePair offset column) := by
      apply Column.within_exchangePair
      intro row h
      obtain ⟨g, placed, cell⟩ := Column.mem_rowsOf.mp h
      refine ⟨(row, g), placed, ?_, Gate.mem_wiresAt (fits.own_row row g placed)⟩
      simp [Gate.isControl, Gate.role_of_swap cell]
    have flips : Within others (Column.flipCells offset column) := by
      rw [funext Column.flipCells_eq]
      refine Within.foldl fun p placed => ?_
      by_cases cell : p.2.isCell "X"
      · refine (within_flipAt p).mono fun w covers => ⟨p, placed, ?_, covers⟩
        simp [Gate.isControl, (Gate.data_of_not cell).1]
      · rw [funext fun b => show flipAt offset p b = b from if_neg cell]
        exact within_id others
    have runPayload (b : Bits) : run? payload.flatten b = some (when
        ((Column.conditions offset column).map (·.1)) (Column.flipCells offset column) b) := by
      have away : ∀ w ∈ (Column.conditions offset column).map (·.1), ∀ p ∈ Column.placed column,
          ¬ p.2.isControl → w ∉ p.2.wiresAt offset p.1 := by
        intro w h p placed other
        obtain ⟨c, condition, rfl⟩ := List.mem_map.mp h
        exact fits.apart_conditions condition placed other
      generalize Column.conditions offset column = conditions at lowered few free away ⊢
      rcases conditions with _ | ⟨c, _ | ⟨d, _ | ⟨e, rest⟩⟩⟩
      · exact absurd rfl free
      · refine run?_payload_under classical ?_ away lowered b
        exact fun row g slice classical payload => run?_underControl classical payload
      · refine run?_payload_under classical ?_ away lowered b
        exact fun row g slice classical payload => run?_underControls classical payload
      · simp at few
    rw [Frame.run?_wrap nodup apart swaps flips runSwap runPayload, Column.act,
      controlled.mpr free, met]
    rfl

end

theorem run?_lowerColumns {columns : List (Column Gate)}
    (each : ∀ column ∈ columns, ∀ slices, lowerColumn source offset column = .ok slices →
      ∀ b, run? slices.flatten b = some (Column.act true offset column b))
    {slices : List Slice} (h : lowerColumns source offset columns = .ok slices) (b : Bits) :
    run? slices.flatten b =
      some (columns.foldl (fun b column => Column.act true offset column b) b) := by
  induction columns generalizing slices b with
  | nil =>
    cases h
    rfl
  | cons column rest ih =>
    simp only [lowerColumns_cons, Except.bind_eq_ok, pure, Except.pure, Except.ok.injEq] at h
    obtain ⟨first, lowered, others, lowered', rfl⟩ := h
    rw [List.flatten_append, run?_append, each column List.mem_cons_self first lowered,
      Option.bind_some, List.foldl_cons]
    exact ih (fun other inside => each other (List.mem_cons_of_mem column inside)) lowered' _

theorem run?_lowerFrom {columns : List (Column Gate)} {index : Nat}
    (each : ∀ column ∈ columns, ∀ source slices, lowerColumn source 0 column = .ok slices →
      ∀ b, run? slices.flatten b = some (Column.act true 0 column b))
    {slices : List Slice} (h : lowerFrom index columns = .ok slices) (b : Bits) :
    run? slices.flatten b =
      some (columns.foldl (fun b column => Column.act true 0 column b) b) := by
  induction columns generalizing index slices b with
  | nil =>
    cases h
    rfl
  | cons column rest ih =>
    simp only [lowerFrom_cons, Except.bind_eq_ok, pure, Except.pure, Except.ok.injEq] at h
    obtain ⟨first, lowered, others, lowered', rfl⟩ := h
    rw [List.flatten_append, run?_append, each column List.mem_cons_self _ first lowered,
      Option.bind_some, List.foldl_cons]
    exact ih (fun other inside => each other (List.mem_cons_of_mem column inside)) lowered' _

/-! ## Circuits -/

namespace Circuit

variable {c : Circuit}

/-- The columns of a well-formed circuit of classical cells run as what they do to bits, if the
circuits nested in it do. -/
theorem run?_lowerColumn (valid : checkCircuit c = .ok ())
    (classical : ∀ g, c.Holds g → g.isClassical) (inside : ∀ g, c.At g → g.RunsInside)
    {column : Column Gate} (h : column ∈ c.columns) {slices : List Slice}
    (lowered : lowerColumn source offset column = .ok slices) (b : Bits) :
    run? slices.flatten b = some (Column.act true offset column b) := by
  obtain ⟨fits, sound⟩ := checkCircuit_eq_ok.mp valid
  have isAt (p : Nat × Gate) (placed : p ∈ Column.placed column) : c.At p.2 :=
    ⟨column, h, Column.mem_of_placed placed⟩
  refine CircuitGrid.run?_lowerColumn ?_ (fits column h) ?_ ?_ lowered b
  · exact fun p placed => classical p.2 (.here (isAt p placed))
  · intro p placed body nested
    obtain ⟨-, inner⟩ := checkGate_eq_ok.mp (sound p.2 (isAt p placed))
    obtain ⟨low, valid⟩ := inner body nested
    exact ⟨low, within_act valid⟩
  · exact fun p placed => inside p.2 (isAt p placed)

theorem run?_lowerCircuit (valid : checkCircuit c = .ok ())
    (classical : ∀ g, c.Holds g → g.isClassical) {slices : List Slice}
    (h : lowerCircuit source offset c = .ok slices) (b : Bits) :
    run? slices.flatten b = some (Grid.act true offset c b) := by
  induction c using Circuit.nesting_induction generalizing source offset slices b with
  | step c ih =>
    have inside (g : Gate) (isAt : c.At g) : g.RunsInside := by
      intro body nested source wire slices lowered b
      obtain ⟨-, sound⟩ := checkCircuit_eq_ok.mp valid
      obtain ⟨-, valid⟩ := (checkGate_eq_ok.mp (sound g isAt)).2 body nested
      exact ih g isAt body nested valid (fun h held => classical h (.inside isAt nested held))
        lowered b
    rw [lowerCircuit_eq] at h
    rw [Grid.act_eq]
    refine run?_lowerColumns (fun column h slices lowered b => ?_) h b
    exact run?_lowerColumn valid classical inside h lowered b

/-- **Lowering keeps what a circuit does to bits.** The program of a well-formed circuit of
classical cells takes every assignment of bits to where the circuit takes it, cells marked as being
without effect doing nothing. -/
theorem run?_lower (valid : c.validate = .ok ()) (classical : ∀ g, c.Holds g → g.isClassical)
    {p : Program} (h : c.lower = .ok p) (b : Bits) : p.run? b = some (c.act true b) := by
  obtain ⟨slices, lowered, rfl⟩ := lower_eq_ok.mp h
  have inside (g : Gate) (isAt : c.At g) : g.RunsInside := by
    intro body nested source wire slices lowered b
    obtain ⟨-, sound⟩ := checkCircuit_eq_ok.mp valid
    obtain ⟨-, valid⟩ := (checkGate_eq_ok.mp (sound g isAt)).2 body nested
    exact run?_lowerCircuit valid (fun h held => classical h (.inside isAt nested held)) lowered b
  rw [Program.run?_ofSlices, act, Grid.act_eq]
  refine run?_lowerFrom (fun column h source slices lowered b => ?_) lowered b
  exact run?_lowerColumn valid classical inside h lowered b

/-- Two columns: an X cell between a control and an anti-control, and a nested circuit below. -/
theorem run?_lower_nested :
    let gate (id : String) : Option Gate := Catalog.find? id
    let c : Circuit := ⟨3, [[gate "•", gate "X", gate "◦"],
      [none, some (.nested "n" "n" ⟨2, [[gate "Swap", gate "Swap"]]⟩), none]]⟩
    let p : Program := ⟨3, [⟨{ op := .x, wires := [2] }, 0⟩, ⟨{ op := .ccx, wires := [0, 2, 1] }, 1⟩,
      ⟨{ op := .x, wires := [2] }, 2⟩, ⟨{ op := .swap, wires := [1, 2] }, 3⟩]⟩
    c.lower = .ok p ∧ p.run? (fun wire => wire == 0) = some (c.act true fun wire => wire == 0) := by
  intro gate c p
  have classical : ∀ g, c.Holds g → g.isClassical := by
    rw [← Grid.all_eq_true]
    decide +kernel
  exact ⟨rfl, run?_lower (by decide +kernel) classical rfl _⟩

/-- A placeholder or a nested circuit marked as being without effect is not lowered: were the mark
not heeded, the circuit here would flip its wire, and its program does not. -/
theorem not_run?_lower_unheeded :
    ¬ ∀ (c : Circuit) (p : Program), c.validate = .ok () → (∀ g, c.Holds g → g.isClassical) →
      c.lower = .ok p → ∀ b, p.run? b = some (c.act false b) := by
  intro all
  let body : Circuit := ⟨1, [[Catalog.find? "X"]]⟩
  let c : Circuit := ⟨1, [[some { Gate.nested "n" "n" body with inert := true }]]⟩
  have classical : ∀ g, c.Holds g → g.isClassical := by
    rw [← Grid.all_eq_true]
    decide +kernel
  have runs := all c ⟨1, []⟩ (by decide +kernel) classical rfl fun _ => false
  have flipped : c.act false (fun _ => false) 0 = true := by decide +kernel
  rw [← Option.some.inj runs] at flipped
  cases flipped

end Circuit

end CircuitGrid
