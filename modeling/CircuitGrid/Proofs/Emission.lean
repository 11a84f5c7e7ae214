import CircuitGrid.Proofs.Lowerable

/-!
# Where operations come from

Every operation of a lowered circuit comes from cells of one of its columns, at some level of
nesting. A column gives rise to operations in seven ways: the flips of its anti-controls, its swap
without and under a control, its placeholders, its payloads without and under one control, and the
plain NOTs under two controls.

* `Circuit.Layer`: the columns of a circuit and of the circuits nested in it, with their first
  wires;
* `Column.Emits`: the operations that the cells of a column give rise to;
* **`Circuit.exists_emits`**: every instruction comes from the cells of a layer;
* `Circuit.Reaches`: the columns that lowering reaches, and
  **`Circuit.Reaches.exists_lowerColumn`**: they give their operations;
* **`Circuit.Layer.exists_instruction`**: in circuits without controls every payload of a layer
  gives its instruction.
-/

namespace CircuitGrid

/-- A column of a circuit or of a circuit nested in it, and the wire of its first slot. The first
wire of the circuit itself is `offset`. -/
inductive Circuit.Layer : Circuit → (offset : Nat) → (first : Nat) → Column Gate → Prop
  | outer {c : Circuit} {offset : Nat} {column : Column Gate} :
      column ∈ c.columns → Layer c offset offset column
  | inner {c body : Circuit} {offset first row : Nat} {column inside : Column Gate} {g : Gate} :
      column ∈ c.columns → (row, g) ∈ Column.placed column → g.body? = some body →
        Layer body (row + offset) first inside → Layer c offset first inside

/-- The operations that the cells of a column give rise to, the wire of its first slot being
`first`. -/
inductive Column.Emits (first : Nat) (column : Column Gate) : Operation → Prop
  /-- An anti-control flips its wire. -/
  | flip {wire : Nat} (condition : (wire, false) ∈ conditions first column) :
      Emits first column { op := .x, wires := [wire] }
  | swap {a b : Nat} (halves : swapWires first column = [a, b]) :
      Emits first column { op := .swap, wires := [a, b] }
  | controlledSwap {a b : Nat} {control : Nat × Bool} (halves : swapWires first column = [a, b])
      (condition : control ∈ conditions first column) :
      Emits first column { op := .cswap, wires := [control.1, a, b] }
  | placeholder {row : Nat} {g : Gate} {p : Placeholder} (inside : (row, g) ∈ payload column)
      (role : g.role = .nonLocal p) :
      Emits first column { op := p.kind.op, wires := [p.source + first, p.target + first],
                           label := some g.title }
  /-- A payload without controls. -/
  | free {row : Nat} {g : Gate} {e : Export} (inside : (row, g) ∈ payload column)
      (role : ∀ p, g.role ≠ .nonLocal p) (exports : g.exports = some e)
      (arity : e.uncontrolled.arity = g.height) :
      Emits first column { op := e.uncontrolled, wires := List.range' (row + first) g.height,
                           params := e.params }
  /-- A payload under one control. -/
  | controlled {row : Nat} {g : Gate} {e : Export} {op : Op} {control : Nat × Bool}
      (inside : (row, g) ∈ payload column) (exports : g.exports = some e)
      (known : e.controlled = some op) (arity : op.arity = g.height + 1)
      (condition : control ∈ conditions first column) :
      Emits first column { op := op, wires := control.1 :: List.range' (row + first) g.height,
                           params := e.controlledParams }
  /-- A plain NOT under two controls. -/
  | toffoli {row : Nat} {g : Gate} {a b : Nat × Bool} (inside : (row, g) ∈ payload column)
      (plain : g.isPlain .x) (both : conditions first column = [a, b]) :
      Emits first column { op := .ccx, wires := [a.1, b.1, row + first] }

/-! ## The operations of a column -/

section

variable {source offset row : Nat} {column : Column Gate} {frame : Frame} {o : Operation}

theorem Frame.mem_flips (h : o ∈ frame.flips.flatten) :
    ∃ wire, (wire, false) ∈ frame.controls ∧ o = { op := .x, wires := [wire] } := by
  unfold flips at h
  split at h
  · cases h
  · rw [List.flatten_singleton, List.mem_map] at h
    obtain ⟨⟨wire, bit⟩, inside, rfl⟩ := h
    obtain ⟨inside, anti⟩ := List.mem_filter.mp inside
    simp only [Bool.not_eq_true'] at anti
    exact ⟨wire, anti ▸ inside, rfl⟩

theorem Frame.mem_swap (h : o ∈ frame.swap.flatten) :
    o = { op := .swap, wires := frame.swaps } ∨
      ∃ control ∈ frame.controls, o = { op := .cswap, wires := control.1 :: frame.swaps } := by
  obtain ⟨controls, halves⟩ := frame
  match halves, controls with
  | [], _ => cases h
  | _ :: _, [] => exact .inl (by simpa [swap] using h)
  | _ :: _, control :: _ => exact .inr ⟨control, List.mem_cons_self, by simpa [swap] using h⟩

theorem emits_of_lowerGate {g : Gate} (inside : (row, g) ∈ Column.payload column)
    {slices : List Slice} (lowered : lowerGate source offset row g = .ok slices)
    (h : o ∈ slices.flatten) :
    Column.Emits offset column o ∨ ∃ body, g.body? = some body ∧
      lowerCircuit source (row + offset) body = .ok slices := by
  by_cases nonLocal : ∃ p, g.role = .nonLocal p
  · obtain ⟨p, role⟩ := nonLocal
    rw [lowerGate_of_nonLocal role, Except.ok.injEq] at lowered
    subst lowered
    simp only [List.flatten_cons, List.flatten_nil, List.append_nil, List.mem_singleton] at h
    exact .inl (h ▸ .placeholder inside role)
  · have role : ∀ p, g.role ≠ .nonLocal p := fun p is => nonLocal ⟨p, is⟩
    cases exports : g.exports with
    | some e =>
      rw [lowerGate_of_exports role exports] at lowered
      split at lowered
      · next arity =>
        rw [Except.ok.injEq] at lowered
        subst lowered
        simp only [List.flatten_cons, List.flatten_nil, List.append_nil, List.mem_singleton] at h
        exact .inl (h ▸ .free inside role exports arity)
      · cases lowered
    | none =>
      cases nested : g.body? with
      | some body =>
        rw [lowerGate_of_nested (Gate.role_of_body? nested) exports] at lowered
        exact .inr ⟨body, rfl, lowered⟩
      | none =>
        rw [lowerGate_of_none role exports nested] at lowered
        cases lowered

theorem emits_of_underControl {g : Gate} {control : Nat × Bool}
    (inside : (row, g) ∈ Column.payload column)
    (condition : control ∈ Column.conditions offset column) {slice : Slice}
    (lowered : underControl source offset control.1 row g = .ok slice) (h : o ∈ slice) :
    Column.Emits offset column o := by
  unfold underControl at lowered
  split at lowered
  · cases lowered
  · cases lowered
  · next e exports _ =>
    split at lowered
    · next op known =>
      split at lowered
      · next arity =>
        rw [Except.ok.injEq] at lowered
        subst lowered
        rw [List.mem_singleton] at h
        exact h ▸ .controlled inside exports known arity condition
      · cases lowered
    · cases lowered

theorem emits_of_underControls {g : Gate} {a b : Nat × Bool}
    (inside : (row, g) ∈ Column.payload column)
    (both : Column.conditions offset column = [a, b]) {slice : Slice}
    (lowered : underControls source offset a.1 b.1 row g = .ok slice) (h : o ∈ slice) :
    Column.Emits offset column o := by
  unfold underControls at lowered
  split at lowered
  · next plain =>
    rw [Except.ok.injEq] at lowered
    subst lowered
    rw [List.mem_singleton] at h
    exact h ▸ .toffoli inside plain both
  · cases lowered

/-- The operation comes from a circuit nested in the column. -/
def Column.EmitsInside (source offset : Nat) (column : Column Gate) (o : Operation) : Prop :=
  ∃ row g body slices, (row, g) ∈ Column.placed column ∧ g.body? = some body ∧
    lowerCircuit source (row + offset) body = .ok slices ∧ o ∈ slices.flatten

theorem emits_of_lowerPayload {controls : List (Nat × Bool)} {payload : List Slice}
    (conditions : controls = Column.conditions offset column) (few : controls.length ≤ 2)
    (lowered : lowerPayload source offset controls column = .ok payload) (h : o ∈ payload.flatten) :
    Column.Emits offset column o ∨ Column.EmitsInside source offset column o := by
  match controls with
  | [] =>
    simp only [lowerPayload, Except.bind_eq_ok, Except.mapM_eq_ok, pure, Except.pure,
      Except.ok.injEq] at lowered
    obtain ⟨parts, each, rfl⟩ := lowered
    rw [List.flatten_flatten, List.mem_flatten] at h
    obtain ⟨_, isPart, h⟩ := h
    obtain ⟨part, inParts, rfl⟩ := List.mem_map.mp isPart
    obtain ⟨⟨row, g⟩, inside, lowered⟩ := exists_left_of_mem each inParts
    obtain emits | ⟨body, nested, lowered⟩ := emits_of_lowerGate inside lowered h
    · exact .inl emits
    · exact .inr ⟨row, g, body, part, List.mem_of_mem_filter inside, nested, lowered, h⟩
  | [control] =>
    simp only [lowerPayload, Except.mapM_eq_ok] at lowered
    obtain ⟨part, isPart, h⟩ := List.mem_flatten.mp h
    obtain ⟨⟨row, g⟩, inside, lowered⟩ := exists_left_of_mem lowered isPart
    have condition : control ∈ Column.conditions offset column :=
      conditions ▸ List.mem_singleton_self control
    exact .inl (emits_of_underControl inside condition lowered h)
  | [a, b] =>
    simp only [lowerPayload, Except.mapM_eq_ok] at lowered
    obtain ⟨part, isPart, h⟩ := List.mem_flatten.mp h
    obtain ⟨⟨row, g⟩, inside, lowered⟩ := exists_left_of_mem lowered isPart
    exact .inl (emits_of_underControls inside conditions.symm lowered h)
  | _ :: _ :: _ :: others =>
    simp only [List.length_cons] at few
    omega

/-- **The operations of a column** come from its own cells or from a circuit nested in it. -/
theorem emits_of_lowerColumn {slices : List Slice}
    (lowered : lowerColumn source offset column = .ok slices) (h : o ∈ slices.flatten) :
    Column.Emits offset column o ∨ Column.EmitsInside source offset column o := by
  simp only [lowerColumn, Except.bind_eq_ok, Frame.ofColumn_eq_ok, pure, Except.pure,
    Except.ok.injEq] at lowered
  obtain ⟨frame, ⟨-, isFrame, few, paired, -⟩, payload, lowered, rfl⟩ := lowered
  have conditions : frame.controls = Column.conditions offset column := by rw [isFrame]
  have halves : frame.swaps = Column.swapWires offset column := by rw [isFrame]
  have flip (h : o ∈ frame.flips.flatten) : Column.Emits offset column o := by
    obtain ⟨wire, condition, rfl⟩ := Frame.mem_flips h
    exact .flip (conditions ▸ condition)
  simp only [Frame.wrap, List.flatten_append, List.mem_append] at h
  obtain ((h | h) | h) | h := h
  · exact .inl (flip h)
  · left
    have two : frame.swaps.length = 2 := by
      refine paired.resolve_left fun none => ?_
      rw [Frame.swap, List.length_eq_zero_iff.mp none] at h
      cases h
    obtain ⟨a, b, pair⟩ := List.length_eq_two.mp two
    rw [pair] at halves
    obtain rfl | ⟨control, condition, rfl⟩ := Frame.mem_swap h <;> rw [pair]
    · exact .swap halves.symm
    · exact .controlledSwap halves.symm (conditions ▸ condition)
  · exact emits_of_lowerPayload conditions few lowered h
  · exact .inl (flip h)

end

/-! ## The operations of a circuit -/

section

variable {source offset : Nat} {slices : List Slice} {o : Operation}

theorem exists_lowerColumn {columns : List (Column Gate)}
    (lowered : lowerColumns source offset columns = .ok slices) (h : o ∈ slices.flatten) :
    ∃ column ∈ columns, ∃ part, lowerColumn source offset column = .ok part ∧ o ∈ part.flatten := by
  obtain ⟨slice, isSlice, h⟩ := List.mem_flatten.mp h
  rw [lowerColumns_eq] at lowered
  obtain ⟨column, isColumn, part, found, inside⟩ := Except.exists_of_mem_flatten lowered isSlice
  exact ⟨column, isColumn, part, found, List.mem_flatten.mpr ⟨slice, inside, h⟩⟩

theorem exists_lowerColumn_of_lowerFrom {columns : List (Column Gate)} {index : Nat}
    (lowered : lowerFrom index columns = .ok slices) (h : o ∈ slices.flatten) :
    ∃ i, ∃ column ∈ columns, ∃ part, lowerColumn i 0 column = .ok part ∧ o ∈ part.flatten := by
  obtain ⟨slice, isSlice, h⟩ := List.mem_flatten.mp h
  rw [lowerFrom_eq] at lowered
  obtain ⟨q, isColumn, part, found, inside⟩ := Except.exists_of_mem_flatten lowered isSlice
  exact ⟨q.2, q.1, List.fst_mem_of_mem_zipIdx isColumn, part, found,
    List.mem_flatten.mpr ⟨slice, inside, h⟩⟩

/-- The operations of a column of a circuit come from its layers when those of the circuits nested
in it do. -/
theorem Circuit.exists_layer {c : Circuit} {column : Column Gate} (isColumn : column ∈ c.columns)
    (nested : ∀ row g body, (row, g) ∈ Column.placed column → g.body? = some body →
      ∀ slices, lowerCircuit source (row + offset) body = .ok slices → o ∈ slices.flatten →
        ∃ first inside, body.Layer (row + offset) first inside ∧ Column.Emits first inside o)
    (lowered : lowerColumn source offset column = .ok slices) (h : o ∈ slices.flatten) :
    ∃ first inside, c.Layer offset first inside ∧ Column.Emits first inside o := by
  obtain emits | ⟨row, g, body, part, placed, isBody, lowered, h⟩ :=
    emits_of_lowerColumn lowered h
  · exact ⟨offset, column, .outer isColumn, emits⟩
  · obtain ⟨first, inside, layer, emits⟩ := nested row g body placed isBody part lowered h
    exact ⟨first, inside, .inner isColumn placed isBody layer, emits⟩

theorem Circuit.exists_emits_of_lowerCircuit {c : Circuit}
    (lowered : lowerCircuit source offset c = .ok slices) (h : o ∈ slices.flatten) :
    ∃ first column, c.Layer offset first column ∧ Column.Emits first column o := by
  induction c using Circuit.nesting_induction generalizing offset slices with
  | step c ih =>
    rw [lowerCircuit_eq] at lowered
    obtain ⟨column, isColumn, part, lowered, h⟩ := exists_lowerColumn lowered h
    refine exists_layer isColumn (fun row g body placed isBody slices lowered h => ?_) lowered h
    exact ih g ⟨column, isColumn, Column.mem_of_placed placed⟩ body isBody lowered h

/-- **Every instruction of a lowered circuit comes from the cells of a layer.** -/
theorem Circuit.exists_emits {c : Circuit} {p : Program} (lowered : c.lower = .ok p)
    {i : Instruction} (h : i ∈ p.instructions) :
    ∃ first column, c.Layer 0 first column ∧ Column.Emits first column i.toOperation := by
  obtain ⟨slices, whole, rfl⟩ := lower_eq_ok.mp lowered
  have inside : i.toOperation ∈ slices.flatten := by
    rw [← map_toOperation_numberSlices 0]
    exact List.mem_map_of_mem h
  obtain ⟨index, column, isColumn, part, lowered, h⟩ :=
    exists_lowerColumn_of_lowerFrom whole inside
  refine exists_layer isColumn (fun row g body _ _ slices lowered h => ?_) lowered h
  exact exists_emits_of_lowerCircuit lowered h

/-- **Every instruction has as many wires as its operation takes.** -/
theorem Column.Emits.length_wires {first : Nat} {column : Column Gate}
    (emits : Column.Emits first column o) : o.wires.length = o.op.arity := by
  cases emits with
  | placeholder =>
    next p _ _ =>
    cases p.kind <;> rfl
  | free inside role exports arity => rw [List.length_range', arity]
  | controlled inside exports known arity => rw [List.length_cons, List.length_range', arity]
  | flip | swap | controlledSwap | toffoli => rfl

end

/-! ## The columns that lowering reaches -/

/-- A column that lowering reaches, and the wire of its first slot: a column of the circuit, or of a
circuit that is put in the place of a payload. -/
inductive Circuit.Reaches : Circuit → (offset : Nat) → (first : Nat) → Column Gate → Prop
  | outer {c : Circuit} {offset : Nat} {column : Column Gate} :
      column ∈ c.columns → Reaches c offset offset column
  | inner {c body : Circuit} {offset first row : Nat} {column inside : Column Gate} {g : Gate} :
      column ∈ c.columns → (row, g) ∈ Column.payload column → g.body? = some body →
        g.exports = none → Reaches body (row + offset) first inside → Reaches c offset first inside

section

variable {source offset : Nat} {slices : List Slice} {c : Circuit}

theorem Circuit.Reaches.layer {first : Nat} {inside : Column Gate}
    (reaches : c.Reaches offset first inside) : c.Layer offset first inside := by
  induction reaches with
  | outer isColumn => exact .outer isColumn
  | inner isColumn payload nested _ _ ih =>
    exact .inner isColumn (List.mem_of_mem_filter payload) nested ih

theorem lowerGate_subset {column : Column Gate}
    (lowered : lowerColumn source offset column = .ok slices)
    (free : ∀ q ∈ Column.placed column, ¬ q.2.isControl) {row : Nat} {g : Gate}
    (inside : (row, g) ∈ Column.payload column) :
    ∃ part, lowerGate source offset row g = .ok part ∧ part ⊆ slices := by
  simp only [lowerColumn_of_free free, Except.bind_eq_ok, Except.mapM_eq_ok, pure, Except.pure,
    Except.ok.injEq] at lowered
  obtain ⟨frame, -, parts, each, rfl⟩ := lowered
  obtain ⟨part, inParts, lowered⟩ := exists_right_of_mem each inside
  refine ⟨part, lowered, fun slice h => ?_⟩
  exact List.mem_append_right _ (List.mem_flatten.mpr ⟨part, inParts, h⟩)

theorem lowerCircuit_subset {column : Column Gate}
    (lowered : lowerColumn source offset column = .ok slices) {row : Nat} {g : Gate}
    (inside : (row, g) ∈ Column.payload column) {body : Circuit} (nested : g.body? = some body)
    (exports : g.exports = none) :
    ∃ part, lowerCircuit source (row + offset) body = .ok part ∧ part ⊆ slices := by
  obtain ⟨-, operations, -⟩ := lowerColumn_ok_iff_parts.mp ⟨slices, lowered⟩
  have free := (operations row g inside).eq_zero_of_nested nested exports
  have lowered := lowerGate_subset lowered (Column.controlCount_eq_zero.mp free) inside
  rwa [lowerGate_of_nested (Gate.role_of_body? nested) exports] at lowered

theorem lowerColumn_subset {columns : List (Column Gate)}
    (lowered : lowerColumns source offset columns = .ok slices) {column : Column Gate}
    (inside : column ∈ columns) :
    ∃ part, lowerColumn source offset column = .ok part ∧ part ⊆ slices := by
  rw [lowerColumns_eq] at lowered
  exact Except.exists_subset_flatten lowered inside

theorem lowerColumn_subset_of_lowerFrom {columns : List (Column Gate)}
    (lowered : lowerFrom 0 columns = .ok slices) {column : Column Gate}
    (inside : column ∈ columns) :
    ∃ i part, lowerColumn i 0 column = .ok part ∧ part ⊆ slices := by
  obtain ⟨i, found⟩ := List.mem_iff_getElem?.mp inside
  have isColumn : (column, i) ∈ columns.zipIdx := List.mem_zipIdx_iff_getElem?.mpr found
  rw [lowerFrom_eq] at lowered
  exact ⟨i, Except.exists_subset_flatten lowered isColumn⟩

namespace Circuit

/-- Every column that lowering reaches is lowered into the slices of the circuit. -/
theorem Reaches.lowerColumn_subset {first : Nat} {inside : Column Gate}
    (reaches : c.Reaches offset first inside)
    (lowered : lowerCircuit source offset c = .ok slices) :
    ∃ part, lowerColumn source first inside = .ok part ∧ part ⊆ slices := by
  induction reaches generalizing slices with
  | outer isColumn =>
    rw [lowerCircuit_eq] at lowered
    exact CircuitGrid.lowerColumn_subset lowered isColumn
  | inner isColumn payload nested exports _ ih =>
    rw [lowerCircuit_eq] at lowered
    obtain ⟨part, column, subset⟩ := CircuitGrid.lowerColumn_subset lowered isColumn
    obtain ⟨part', body, subset'⟩ := lowerCircuit_subset column payload nested exports
    obtain ⟨part'', found, subset''⟩ := ih body
    exact ⟨part'', found, fun _ h => subset (subset' (subset'' h))⟩

/-- **The operations of every column that lowering reaches are instructions** of the circuit. -/
theorem Reaches.exists_lowerColumn {first : Nat} {inside : Column Gate}
    (reaches : c.Reaches 0 first inside) {p : Program} (lowered : c.lower = .ok p) :
    ∃ source part, lowerColumn source first inside = .ok part ∧
      ∀ o ∈ part.flatten, ∃ i ∈ p.instructions, i.toOperation = o := by
  obtain ⟨slices, whole, rfl⟩ := lower_eq_ok.mp lowered
  have column : ∃ source part, lowerColumn source first inside = .ok part ∧ part ⊆ slices := by
    cases reaches with
    | outer isColumn => exact lowerColumn_subset_of_lowerFrom whole isColumn
    | inner isColumn payload nested exports reaches =>
      obtain ⟨source, part, column, subset⟩ := lowerColumn_subset_of_lowerFrom whole isColumn
      obtain ⟨part', body, subset'⟩ := lowerCircuit_subset column payload nested exports
      obtain ⟨part'', found, subset''⟩ := reaches.lowerColumn_subset body
      exact ⟨source, part'', found, fun _ h => subset (subset' (subset'' h))⟩
  obtain ⟨source, part, column, subset⟩ := column
  refine ⟨source, part, column, fun o inside => ?_⟩
  obtain ⟨slice, isSlice, inside⟩ := List.mem_flatten.mp inside
  rw [← List.mem_map, Program.ofSlices, map_toOperation_numberSlices]
  exact List.mem_flatten.mpr ⟨slice, subset isSlice, inside⟩

end Circuit

/-! ## What the payloads of a circuit without controls give rise to -/

/-- The circuit holds no controls, and all circuits nested in it are put in their place. -/
structure Circuit.Inlined (c : Circuit) : Prop where
  free : ∀ g, c.Holds g → ¬ g.isControl
  inline : ∀ g, c.Holds g → g.body?.isSome → g.isPayload ∧ g.exports = none

theorem Circuit.Inlined.body (inlined : c.Inlined) {g : Gate} (here : c.At g) {body : Circuit}
    (nested : g.body? = some body) : body.Inlined :=
  ⟨fun h held => inlined.free h (.inside here nested held),
    fun h held => inlined.inline h (.inside here nested held)⟩

/-- Lowering reaches every layer of such a circuit. -/
theorem Circuit.Layer.reaches {first : Nat} {inside : Column Gate}
    (layer : c.Layer offset first inside) (inlined : c.Inlined) : c.Reaches offset first inside := by
  induction layer with
  | outer isColumn => exact .outer isColumn
  | @inner c body offset first row column inside g isColumn placed nested _ ih =>
    have here : c.At g := ⟨column, isColumn, Column.mem_of_placed placed⟩
    obtain ⟨isPayload, exports⟩ := inlined.inline g (.here here) (by rw [nested]; rfl)
    exact .inner isColumn (List.mem_filter.mpr ⟨placed, isPayload⟩) nested exports
      (ih (inlined.body here nested))

theorem Circuit.Layer.holds {first : Nat} {inside : Column Gate}
    (layer : c.Layer offset first inside) {g : Gate} (h : some g ∈ inside) : c.Holds g := by
  induction layer with
  | outer isColumn => exact .here ⟨_, isColumn, h⟩
  | inner isColumn placed nested _ ih =>
    exact .inside ⟨_, isColumn, Column.mem_of_placed placed⟩ nested (ih h)

/-- **Every payload of a layer gives its instruction**: in a circuit without controls, in which all
nested circuits are put in their place, a payload with an operation is lowered to it. -/
theorem Circuit.Layer.exists_instruction {first : Nat} {inside : Column Gate}
    (layer : c.Layer 0 first inside) (inlined : c.Inlined) {p : Program}
    (lowered : c.lower = .ok p) {row : Nat} {g : Gate} (payload : (row, g) ∈ Column.payload inside)
    (role : ∀ q, g.role ≠ .nonLocal q) {e : Export} (exports : g.exports = some e) :
    ∃ i ∈ p.instructions, i.toOperation =
      ⟨e.uncontrolled, List.range' (row + first) g.height, e.params, none⟩ := by
  obtain ⟨source, part, column, inProgram⟩ := (layer.reaches inlined).exists_lowerColumn lowered
  obtain ⟨slices, found, subset⟩ := lowerGate_subset column
    (fun q h => inlined.free q.2 (layer.holds (Column.mem_of_placed h))) payload
  rw [lowerGate_of_exports role exports] at found
  split at found
  · cases found
    exact inProgram _ (List.mem_flatten.mpr ⟨_, subset List.mem_cons_self, List.mem_cons_self⟩)
  · cases found

end

end CircuitGrid
