import CircuitGrid.Catalog
import CircuitGrid.Proofs.Emission

/-!
# The wires of lowered instructions

In a fitting column no row belongs to two gates, so that the control of an operation, its swap
halves and the rows of its payload are different wires. A nested circuit lies in the rows of its gate, and
every layer of a well-formed circuit therefore lies in the wires of the circuit.

* `Circuit.Layer.fits`: the layers of a well-formed circuit fit, inside its wires;
* `Column.Emits.covers`, `Column.Emits.nodup`: the wires of an operation lie in the rows that its
  column covers, and differ;
* **`Circuit.operands_lower`**: the wires of the instructions of a well-formed circuit.
-/

namespace CircuitGrid

/-! ## Roles of gates -/

namespace Gate

variable {g : Gate}

theorem isPayload_iff_of_roles :
    g.isPayload ↔ ¬ g.isSwapHalf ∧ ¬ g.isControl ∧ g.inert = false := by
  simp only [isPayload, hasNoEffect, Bool.and_eq_true, Bool.not_eq_true', Bool.or_eq_false_iff,
    Bool.not_eq_true]
  tauto

theorem not_isSwapHalf_of_isControl (control : g.isControl) : ¬ g.isSwapHalf := by
  unfold isControl at control
  unfold isSwapHalf
  split at control <;> simp_all

end Gate

namespace Column

variable {wires first : Nat} {column : Column Gate} {o : Operation}

/-- A gate of a fitting column that is no placeholder lies in the wires from its row on. -/
theorem Fits.add_height_le (fits : Fits wires column) {row : Nat} {g : Gate}
    (inside : (row, g) ∈ placed column) (role : ∀ p, g.role ≠ .nonLocal p) :
    row + g.height ≤ wires := by
  have tall := g.height_pos
  have last : row + g.height - 1 ∈ g.rowsAt row := by
    rw [Gate.rowsAt_of_local role, List.mem_range'_1]
    omega
  have := fits.in_range _ (mem_occupied.mpr ⟨row, g, inside, last⟩)
  omega

/-- The rows of two gates of a fitting column that some property tells apart are different. -/
theorem Fits.ne_of_apart (fits : Fits wires column) {P : Gate → Prop} {row row' r r' : Nat}
    {g g' : Gate} (inside : (row, g) ∈ placed column) (inside' : (row', g') ∈ placed column)
    (has : P g) (lacks : ¬ P g') (covers : r ∈ g.rowsAt row) (covers' : r' ∈ g'.rowsAt row') :
    r ≠ r' := by
  rintro rfl
  have same := fits.unique inside inside' covers covers'
  rw [Prod.mk.injEq] at same
  exact lacks (same.2 ▸ has)

/-! ## Rows and wires of operations -/

theorem Fits.covers_condition (fits : Fits wires column) {control : Nat × Bool}
    (condition : control ∈ conditions first column) :
    ∃ row g, (row, g) ∈ placed column ∧ g.isControl ∧ row ∈ g.rowsAt row ∧
      control.1 = row + first := by
  obtain ⟨⟨row, g⟩, inside, bit, wire⟩ := mem_conditions.mp condition
  exact ⟨row, g, inside, Gate.isControl_of_controlBit bit, fits.own_row row g inside, wire.symm⟩

theorem Fits.covers_swapWire (fits : Fits wires column) {wire : Nat}
    (half : wire ∈ swapWires first column) :
    ∃ row g, (row, g) ∈ placed column ∧ g.isSwapHalf ∧ row ∈ g.rowsAt row ∧ wire = row + first := by
  obtain ⟨⟨row, g⟩, inside, half, wire⟩ := mem_swapWires.mp half
  exact ⟨row, g, inside, half, fits.own_row row g inside, wire.symm⟩

theorem mem_placed_of_payload {row : Nat} {g : Gate} (inside : (row, g) ∈ payload column) :
    (row, g) ∈ placed column ∧ g.isPayload :=
  List.mem_filter.mp inside

/-- The wires from the row of a payload on, as many as it is tall, lie in its rows. -/
theorem covers_range {row w : Nat} {g : Gate} (role : ∀ p, g.role ≠ .nonLocal p)
    (h : w ∈ List.range' (row + first) g.height) : ∃ r ∈ g.rowsAt row, w = r + first := by
  rw [List.mem_range'_1] at h
  refine ⟨w - first, ?_, by omega⟩
  rw [Gate.rowsAt_of_local role, List.mem_range'_1]
  omega

/-- The placeholders of a column have no exports. -/
def Bare (column : Column Gate) : Prop :=
  ∀ row g, (row, g) ∈ placed column → g.placeholder?.isSome → g.exports = none

theorem Bare.role {row : Nat} {g : Gate} {e : Export} (bare : Bare column)
    (inside : (row, g) ∈ payload column) (exports : g.exports = some e) (p : Placeholder) :
    g.role ≠ .nonLocal p := by
  intro role
  have none := bare row g (mem_placed_of_payload inside).1 (by simp [Gate.placeholder?, role])
  rw [exports] at none
  cases none

/-- **The wires of an operation lie in the rows that its column covers.** -/
theorem Emits.covers (fits : Fits wires column) (bare : Bare column)
    (emits : Emits first column o) : ∀ w ∈ o.wires, ∃ r ∈ occupied column, w = r + first := by
  have cover {row g r} (inside : (row, g) ∈ placed column) (h : r ∈ g.rowsAt row) :
      ∃ r' ∈ occupied column, r + first = r' + first :=
    ⟨r, mem_occupied.mpr ⟨row, g, inside, h⟩, rfl⟩
  have condition {control} (h : control ∈ conditions first column) :
      ∃ r ∈ occupied column, control.1 = r + first := by
    obtain ⟨row, g, inside, -, own, wire⟩ := fits.covers_condition h
    rw [wire]
    exact cover inside own
  have half {w} (h : w ∈ swapWires first column) : ∃ r ∈ occupied column, w = r + first := by
    obtain ⟨row, g, inside, -, own, rfl⟩ := fits.covers_swapWire h
    exact cover inside own
  have range {row g w} (inside : (row, g) ∈ payload column) (role : ∀ p, g.role ≠ .nonLocal p)
      (h : w ∈ List.range' (row + first) g.height) : ∃ r ∈ occupied column, w = r + first := by
    obtain ⟨r, covers, rfl⟩ := covers_range role h
    exact cover (mem_placed_of_payload inside).1 covers
  cases emits with
  | flip anti => simpa using condition anti
  | swap halves =>
    simp only [List.forall_mem_cons, List.not_mem_nil, false_imp_iff, implies_true, and_true]
    exact ⟨half (by simp [halves]), half (by simp [halves])⟩
  | controlledSwap halves under =>
    simp only [List.forall_mem_cons, List.not_mem_nil, false_imp_iff, implies_true, and_true]
    exact ⟨condition under, half (by simp [halves]), half (by simp [halves])⟩
  | placeholder inside role =>
    next row g p =>
    have ends (r : Nat) (h : r = p.source ∨ r = p.target) : r ∈ g.rowsAt row :=
      (Gate.mem_rowsAt_of_placeholder (Gate.placeholder?_eq_some.mpr role)).mpr h
    simp only [List.forall_mem_cons, List.not_mem_nil, false_imp_iff, implies_true, and_true]
    obtain ⟨inside, -⟩ := mem_placed_of_payload inside
    exact ⟨cover inside (ends _ (.inl rfl)), cover inside (ends _ (.inr rfl))⟩
  | free inside role => exact fun w h => range inside role h
  | controlled inside exports known arity under =>
    rw [List.forall_mem_cons]
    exact ⟨condition under, fun w h => range inside (bare.role inside exports) h⟩
  | toffoli inside plain both =>
    obtain ⟨inside, -⟩ := mem_placed_of_payload inside
    simp only [List.forall_mem_cons, List.not_mem_nil, false_imp_iff, implies_true, and_true]
    exact ⟨condition (by simp [both]), condition (by simp [both]),
      cover inside (fits.own_row _ _ inside)⟩

/-- **The wires of an operation differ.** -/
theorem Emits.nodup (fits : Fits wires column) (bare : Bare column)
    (emits : Emits first column o) : o.wires.Nodup := by
  -- A control stands in another row than a swap half or a payload.
  have apart {control : Nat × Bool} {row r : Nat} {g : Gate}
      (condition : control ∈ conditions first column) (inside : (row, g) ∈ placed column)
      (other : ¬ g.isControl) (covers : r ∈ g.rowsAt row) : control.1 ≠ r + first := by
    obtain ⟨row', g', inside', isControl, own, wire⟩ := fits.covers_condition condition
    have := fits.ne_of_apart (P := (Gate.isControl ·)) inside' inside isControl other own covers
    omega
  have payload {row : Nat} {g : Gate} (inside : (row, g) ∈ payload column) :
      (row, g) ∈ placed column ∧ ¬ g.isControl := by
    obtain ⟨inside, isPayload⟩ := mem_placed_of_payload inside
    exact ⟨inside, (Gate.isPayload_iff_of_roles.mp isPayload).2.1⟩
  cases emits with
  | flip => exact List.nodup_singleton _
  | swap halves => exact halves ▸ nodup_swapWires first column
  | controlledSwap halves under =>
    rw [List.nodup_cons, ← halves]
    refine ⟨fun inside => ?_, nodup_swapWires first column⟩
    obtain ⟨row, g, placed, half, own, wire⟩ := fits.covers_swapWire inside
    exact apart under placed (fun is => Gate.not_isSwapHalf_of_isControl is half) own wire
  | placeholder inside role =>
    next row g p =>
    have nodup := fits.rows_nodup (mem_placed_of_payload inside).1
    have ends := (Gate.nodup_rowsAt_iff row).mp nodup p (Gate.placeholder?_eq_some.mpr role)
    have differ : p.source + first ≠ p.target + first := by omega
    simpa using differ
  | free => exact List.nodup_range'
  | controlled inside exports known arity under =>
    rw [List.nodup_cons]
    refine ⟨fun h => ?_, List.nodup_range'⟩
    obtain ⟨r, covers, wire⟩ := covers_range (bare.role inside exports) h
    obtain ⟨inside, other⟩ := payload inside
    exact apart under inside other covers wire
  | toffoli inside plain both =>
    next row g a b =>
    obtain ⟨inside, other⟩ := payload inside
    have own := fits.own_row _ _ inside
    have differ := nodup_conditions first column
    rw [both] at differ
    have first_ne : a.1 ≠ row + first := apart (by simp [both]) inside other own
    have second_ne : b.1 ≠ row + first := apart (by simp [both]) inside other own
    simpa [first_ne, second_ne] using differ

end Column

/-! ## Layers -/

namespace Circuit

variable {c : Circuit} {offset first : Nat} {column : Column Gate}

/-- **The layers of a well-formed circuit fit, inside its wires.** -/
theorem Layer.fits (layer : c.Layer offset first column) (valid : checkCircuit c = .ok ()) :
    ∃ wires, Column.Fits wires column ∧ offset ≤ first ∧ first + wires ≤ offset + c.wires := by
  induction layer with
  | outer isColumn =>
    exact ⟨_, (checkCircuit_eq_ok.mp valid).1 _ isColumn, Nat.le_refl _, Nat.le_refl _⟩
  | @inner c body offset first row outer column g isColumn inside nested _ ih =>
    obtain ⟨fits, sound⟩ := checkCircuit_eq_ok.mp valid
    have isAt : c.At g := ⟨outer, isColumn, Column.mem_of_placed inside⟩
    obtain ⟨low, valid⟩ := (checkGate_eq_ok.mp (sound g isAt)).2 body nested
    have tall := (fits outer isColumn).add_height_le inside (by simp [Gate.role_of_body? nested])
    obtain ⟨wires, fits, above, below⟩ := ih valid
    exact ⟨wires, fits, by omega, by omega⟩

/-- **The wires of the instructions of a well-formed circuit** without exports of placeholders are
as many as the operation takes, differ, and are wires of the circuit. All wires that lowering
numbers, the rows covered in its layers, are below `2 ^ 32` if the number of wires is not above. -/
theorem operands_lower {p : Program} (valid : c.validate = .ok ())
    (bare : ∀ g, c.Holds g → g.placeholder?.isSome → g.exports = none) (lowered : c.lower = .ok p) :
    (∀ i ∈ p.instructions,
      i.wires.length = i.op.arity ∧ i.wires.Nodup ∧ ∀ w ∈ i.wires, w < c.wires) ∧
      (c.wires ≤ Nat.pow 2 32 → ∀ first column, c.Layer 0 first column →
        ∀ r ∈ Column.occupied column, r + first < Nat.pow 2 32) := by
  have inside {first column r} (layer : c.Layer 0 first column)
      (covered : r ∈ Column.occupied column) : r + first < c.wires := by
    obtain ⟨wires, fits, -, below⟩ := layer.fits valid
    have := fits.in_range r covered
    omega
  constructor
  · intro i h
    obtain ⟨first, column, layer, emits⟩ := exists_emits lowered h
    obtain ⟨wires, fits, -, -⟩ := layer.fits valid
    have bare : Column.Bare column := fun row g placed =>
      bare g (layer.holds (Column.mem_of_placed placed))
    refine ⟨emits.length_wires, emits.nodup fits bare, fun w h => ?_⟩
    obtain ⟨r, covered, rfl⟩ := emits.covers fits bare w h
    exact inside layer covered
  · intro few first column layer r covered
    exact Nat.lt_of_lt_of_le (inside layer covered) few

/-- A placeholder around a nested circuit, and a swap around an anti-control. -/
theorem operands_lower_surrounded :
    let gate (id : String) : Option Gate := Catalog.find? id
    let c : Circuit := ⟨4, [[some (.nonLocal "~nlcx_0_0" ⟨.cx, 3, 0, (4, 5)⟩),
      some (.nested "n" "n" ⟨2, [[gate "•", gate "X"]]⟩), none, none],
      [gate "Swap", gate "◦", none, gate "Swap"]]⟩
    let p : Program := ⟨4, [⟨{ op := .cx, wires := [3, 0], label := some "NL-CNOT(3→0)" }, 0⟩,
      ⟨{ op := .cx, wires := [1, 2] }, 1⟩, ⟨{ op := .x, wires := [1] }, 2⟩,
      ⟨{ op := .cswap, wires := [1, 0, 3] }, 3⟩, ⟨{ op := .x, wires := [1] }, 4⟩]⟩
    c.validate = .ok () ∧ (∀ g, c.Holds g → g.placeholder?.isSome → g.exports = none) ∧
      c.lower = .ok p ∧
        ∀ i ∈ p.instructions,
          i.wires.length = i.op.arity ∧ i.wires.Nodup ∧ ∀ w ∈ i.wires, w < 4 := by
  intro gate c p
  have valid : c.validate = .ok () := by decide +kernel
  have all : Grid.all (fun g => g.placeholder?.isNone || g.exports.isNone) c := by decide +kernel
  have bare : ∀ g, c.Holds g → g.placeholder?.isSome → g.exports = none := by
    intro g held placeholder
    have passes := Grid.all_eq_true.mp all g held
    simpa [Option.isNone_iff_eq_none, Option.ne_none_iff_isSome.mpr placeholder] using passes
  exact ⟨valid, bare, rfl, (operands_lower valid bare rfl).1⟩

end Circuit

end CircuitGrid
