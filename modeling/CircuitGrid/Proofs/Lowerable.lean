import CircuitGrid.Proofs.Lowering
import CircuitGrid.Catalog

/-!
# Which circuits are lowered

A column is lowered when its controls and swap halves make a frame and every payload has an
operation for the number of controls; a circuit that is put in place of a nested gate has to be
lowered as well. What cannot be lowered is blamed on the outermost column around it, and the first
such column is the one that an error names.

* `Gate.LowersUnder`: what a payload needs under a number of controls;
* `Column.Lowerable`: the columns that are lowered, and **`lowerColumn_ok_iff`**;
* `LoweringError.column`, `column_of_lowerColumn`: the column that an error blames;
* **`Circuit.lower_accepts`**: the circuits that are lowered, and the blame for the others.
-/

namespace CircuitGrid

/-! ## The grammar -/

/-- What a payload needs in a column with the given number of controls. Without a control it may
also be a circuit that is put in its place. -/
def Gate.LowersUnder (g : Gate) : Nat → Prop
  | 0 => (∃ p, g.role = .nonLocal p) ∨ (∃ e, g.exports = some e ∧ e.uncontrolled.arity = g.height) ∨
      (g.exports = none ∧ ∃ body, g.body? = some body)
  | 1 => g.body? = none ∧
      ∃ e op, g.exports = some e ∧ e.controlled = some op ∧ op.arity = g.height + 1
  | _ => g.isPlain .x

namespace Column

/-- The number of controls of a column, of any kind. -/
def controlCount (column : Column Gate) : Nat := (placed column).countP (·.2.isControl)

/-- The number of swap halves of a column. -/
def swapCount (column : Column Gate) : Nat := (placed column).countP (·.2.isSwapHalf)

/-- The column has no parity control and at most two controls, and its swap halves pair up, but not
under two controls. -/
structure Framed (column : Column Gate) : Prop where
  parity : ∀ row g axis, (row, g) ∈ placed column → g.role ≠ .parity axis
  few : controlCount column ≤ 2
  paired : swapCount column = 0 ∨ swapCount column = 2
  single : controlCount column = 2 → swapCount column = 0

/-- The columns that can be lowered. -/
inductive Lowerable : Column Gate → Prop
  | intro {column : Column Gate} (framed : Framed column)
      (operations : ∀ row g, (row, g) ∈ payload column → g.LowersUnder (controlCount column))
      (bodies : controlCount column = 0 → ∀ row g body, (row, g) ∈ payload column →
        g.exports = none → g.body? = some body → ∀ inside ∈ body.columns, Lowerable inside) :
      Lowerable column

end Column

/-- A circuit is put in the place of a payload only where there are no controls. -/
theorem Gate.LowersUnder.eq_zero_of_nested {g : Gate} {count : Nat} (operation : g.LowersUnder count)
    {body : Circuit} (nested : g.body? = some body) (exports : g.exports = none) : count = 0 := by
  match count, operation with
  | 0, _ => rfl
  | 1, operation => simp [LowersUnder, nested] at operation
  | _ + 2, operation => simp [LowersUnder, isPlain, exports] at operation

theorem Column.controlCount_eq_zero {column : Column Gate} :
    controlCount column = 0 ↔ ∀ q ∈ placed column, ¬ q.2.isControl := by
  rw [controlCount, List.countP_eq_zero]

/-! ## Frames -/

theorem Gate.controlBit_isSome {g : Gate} (control : g.isControl) :
    g.controlBit.isSome ↔ ∀ axis, g.role ≠ .parity axis := by
  unfold isControl at control
  unfold controlBit
  split at control <;> simp_all

section

variable {source offset row : Nat} {column : Column Gate}

/-- Without parity controls every control sets a condition. -/
theorem Column.length_conditions
    (plain : ∀ p ∈ placed column, p.2.isControl → p.2.controlBit.isSome) :
    (conditions offset column).length = controlCount column := by
  rw [conditions, List.length_filterMap_eq_countP, controlCount]
  refine List.countP_congr fun p inside => ?_
  rw [Option.isSome_map]
  refine ⟨fun bit => ?_, plain p inside⟩
  obtain ⟨bit, found⟩ := Option.isSome_iff_exists.mp bit
  exact Gate.isControl_of_controlBit found

theorem Column.length_swapWires : (swapWires offset column).length = swapCount column := by
  rw [swapWires, List.length_map, ← List.countP_eq_length_filter, swapCount]

/-- A column has a frame of so many controls when it is a possible one. -/
theorem Frame.ofColumn_ok_iff :
    (∃ frame, Frame.ofColumn source offset column = .ok frame) ↔ Column.Framed column := by
  have plain : (∀ p ∈ Column.placed column, p.2.isControl → p.2.controlBit.isSome) ↔
      ∀ row g axis, (row, g) ∈ Column.placed column → g.role ≠ .parity axis := by
    constructor
    · intro plain row g axis inside parity
      have control : g.isControl := by simp [Gate.isControl, parity]
      exact (Gate.controlBit_isSome control).mp (plain (row, g) inside control) axis parity
    · intro none p inside control
      exact (Gate.controlBit_isSome control).mpr fun axis => none p.1 p.2 axis inside
  simp only [Frame.ofColumn_eq_ok, exists_and_left, exists_eq_left]
  rw [← List.length_eq_zero_iff, Column.length_swapWires]
  constructor
  · rintro ⟨bits, few, paired, single⟩
    rw [Column.length_conditions bits] at few single
    exact ⟨plain.mp bits, few, paired, single⟩
  · rintro ⟨parity, few, paired, single⟩
    have bits := plain.mpr parity
    rw [Column.length_conditions bits]
    exact ⟨bits, few, paired, single⟩

/-! ## Payloads -/

/-- A payload is lowered without controls when it has an operation or its circuit is lowered. -/
theorem lowerGate_ok_iff {g : Gate} :
    (∃ slices, lowerGate source offset row g = .ok slices) ↔
      g.LowersUnder 0 ∧ ∀ body, g.exports = none → g.body? = some body →
        ∃ slices, lowerCircuit source (row + offset) body = .ok slices := by
  by_cases nonLocal : ∃ p, g.role = .nonLocal p
  · obtain ⟨p, role⟩ := nonLocal
    have flat : g.body? = none := Gate.body?_eq_none (by simp [role])
    simp [lowerGate_of_nonLocal role, Gate.LowersUnder, role, flat]
  have role : ∀ p, g.role ≠ .nonLocal p := fun p is => nonLocal ⟨p, is⟩
  cases exports : g.exports with
  | some e =>
    rw [lowerGate_of_exports role exports]
    by_cases arity : e.uncontrolled.arity = g.height <;>
      simp [Gate.LowersUnder, role, exports, arity]
  | none =>
    cases nested : g.body? with
    | some body =>
      rw [lowerGate_of_nested (Gate.role_of_body? nested) exports]
      simp [Gate.LowersUnder, exports, nested]
    | none =>
      rw [lowerGate_of_none role exports nested]
      simp [Gate.LowersUnder, role, exports, nested]

theorem underControl_ok_iff {g : Gate} {control : Nat} :
    (∃ slice, underControl source offset control row g = .ok slice) ↔ g.LowersUnder 1 := by
  unfold underControl
  split
  · next body role => simp [Gate.LowersUnder, Gate.body?, role]
  · next _ none _ => simp [Gate.LowersUnder, none]
  · next e exports other =>
    have flat : g.body? = none := Gate.body?_eq_none other
    cases known : e.controlled with
    | none => simp [Gate.LowersUnder, exports, known]
    | some op =>
      by_cases arity : op.arity = g.height + 1 <;>
        simp [Gate.LowersUnder, flat, exports, known, arity]

theorem underControls_ok_iff {g : Gate} {first second : Nat} :
    (∃ slice, underControls source offset first second row g = .ok slice) ↔ g.LowersUnder 2 := by
  unfold underControls
  by_cases plain : g.isPlain .x <;> simp [Gate.LowersUnder, plain]

/-- The payload of a column is lowered when each gate of it has an operation for the number of
controls, and the circuits that are put in place are lowered. -/
theorem lowerPayload_ok_iff {controls : List (Nat × Bool)} (few : controls.length ≤ 2) :
    (∃ slices, lowerPayload source offset controls column = .ok slices) ↔
      (∀ row g, (row, g) ∈ Column.payload column → g.LowersUnder controls.length) ∧
        (controls.length = 0 → ∀ row g body, (row, g) ∈ Column.payload column →
          g.exports = none → g.body? = some body →
            ∃ slices, lowerCircuit source (row + offset) body = .ok slices) := by
  match controls with
  | [] =>
    simp only [lowerPayload, Except.bind_eq_ok, pure, Except.pure, Except.ok.injEq,
      List.length_nil, true_imp_iff]
    rw [exists_comm]
    simp only [exists_and_left, exists_eq', and_true, Except.exists_mapM_iff, lowerGate_ok_iff,
      Prod.forall]
    constructor
    · intro each
      exact ⟨fun row g inside => (each row g inside).1,
        fun row g body inside => (each row g inside).2 body⟩
    · rintro ⟨each, bodies⟩ row g inside
      exact ⟨each row g inside, fun body => bodies row g body inside⟩
  | [control] =>
    simp [lowerPayload, Except.exists_mapM_iff, underControl_ok_iff]
  | [first, second] =>
    simp [lowerPayload, Except.exists_mapM_iff, underControls_ok_iff]
  | _ :: _ :: _ :: _ =>
    simp only [List.length_cons] at few
    omega

/-! ## Columns -/

theorem Frame.length_controls {frame : Frame}
    (framed : Frame.ofColumn source offset column = .ok frame) :
    frame.controls.length = Column.controlCount column ∧ frame.controls.length ≤ 2 := by
  obtain ⟨bits, isFrame, few, -⟩ := Frame.ofColumn_eq_ok.mp framed
  refine ⟨?_, few⟩
  rw [isFrame]
  exact Column.length_conditions bits

theorem lowerColumn_ok_iff_parts :
    (∃ slices, lowerColumn source offset column = .ok slices) ↔ Column.Framed column ∧
      (∀ row g, (row, g) ∈ Column.payload column → g.LowersUnder (Column.controlCount column)) ∧
        (Column.controlCount column = 0 → ∀ row g body, (row, g) ∈ Column.payload column →
          g.exports = none → g.body? = some body →
            ∃ slices, lowerCircuit source (row + offset) body = .ok slices) := by
  simp only [lowerColumn, Except.bind_eq_ok, pure, Except.pure, Except.ok.injEq]
  constructor
  · rintro ⟨_, frame, framed, payload, lowered, rfl⟩
    obtain ⟨count, few⟩ := Frame.length_controls framed
    obtain ⟨operations, bodies⟩ := (lowerPayload_ok_iff few).mp ⟨payload, lowered⟩
    rw [count] at operations bodies
    exact ⟨Frame.ofColumn_ok_iff.mp ⟨frame, framed⟩, operations, bodies⟩
  · rintro ⟨framed, operations, bodies⟩
    obtain ⟨frame, framed⟩ := Frame.ofColumn_ok_iff.mpr framed
    obtain ⟨count, few⟩ := Frame.length_controls framed
    rw [← count] at operations bodies
    obtain ⟨payload, lowered⟩ := (lowerPayload_ok_iff few).mpr ⟨operations, bodies⟩
    exact ⟨_, frame, framed, payload, lowered, rfl⟩

theorem lowerColumns_ok_iff {columns : List (Column Gate)} :
    (∃ slices, lowerColumns source offset columns = .ok slices) ↔
      ∀ column ∈ columns, ∃ slices, lowerColumn source offset column = .ok slices := by
  induction columns with
  | nil => simp [lowerColumns]
  | cons column rest ih => rw [lowerColumns_cons, Except.exists_append_iff, ih, List.forall_mem_cons]

/-- **A column is lowered exactly when it is lowerable**, wherever it stands. -/
theorem lowerColumn_ok_iff :
    (∃ slices, lowerColumn source offset column = .ok slices) ↔ Column.Lowerable column := by
  -- The induction is on a circuit around the column; the circuits in its payload are nested there.
  suffices all : ∀ c : Circuit, ∀ column ∈ c.columns, ∀ source offset,
      (∃ slices, lowerColumn source offset column = .ok slices) ↔ Column.Lowerable column from
    all ⟨0, [column]⟩ column List.mem_cons_self source offset
  intro c
  induction c using Circuit.nesting_induction with
  | step c ih =>
    intro column isColumn source offset
    have body {row g body} (inside : (row, g) ∈ Column.payload column)
        (nested : g.body? = some body) :
        (∃ slices, lowerCircuit source (row + offset) body = .ok slices) ↔
          ∀ inside ∈ body.columns, Column.Lowerable inside := by
      have here : c.At g :=
        ⟨column, isColumn, Column.mem_of_placed (List.mem_of_mem_filter inside)⟩
      rw [lowerCircuit_eq, lowerColumns_ok_iff]
      exact forall₂_congr fun inner h => ih g here body nested inner h source _
    rw [lowerColumn_ok_iff_parts]
    constructor
    · rintro ⟨framed, operations, bodies⟩
      refine .intro framed operations fun free row g inner inside exports nested => ?_
      exact (body inside nested).mp (bodies free row g inner inside exports nested)
    · rintro ⟨framed, operations, bodies⟩
      refine ⟨framed, operations, fun free row g inner inside exports nested => ?_⟩
      exact (body inside nested).mpr (bodies free row g inner inside exports nested)

end

/-! ## Blame -/

/-- The outermost column that an error blames. -/
def LoweringError.column : LoweringError → Nat
  | unsupportedGate _ column _ => column
  | parityControl column _ _ => column
  | tooManyControls column _ => column
  | unpairedSwap column _ => column
  | swapUnderTwoControls column => column
  | onlyNot column _ _ => column

section

variable {source offset row : Nat} {column : Column Gate} {e : LoweringError}

theorem Frame.column_of_controlsOf {cells : List (Nat × Gate)}
    (failed : Frame.controlsOf source offset cells = .error e) : e.column = source := by
  induction cells with
  | nil => cases failed
  | cons q rest ih =>
    rw [Frame.controlsOf] at failed
    split at failed
    · split at failed
      · cases failed
        rfl
      · simp only [Except.bind_eq_error, pure, Except.pure, reduceCtorEq, and_false, exists_false,
          or_false] at failed
        exact ih failed
    · exact ih failed

theorem Frame.column_of_ofColumn (failed : Frame.ofColumn source offset column = .error e) :
    e.column = source := by
  rw [Frame.ofColumn_eq, Except.bind_eq_error] at failed
  obtain failed | ⟨controls, -, failed⟩ := failed
  · exact Frame.column_of_controlsOf failed
  · unfold Frame.checked at failed
    split_ifs at failed <;> cases failed <;> rfl

/-- A payload under one control fails in one way only. -/
theorem error_of_underControl {g : Gate} {control : Nat}
    (failed : underControl source offset control row g = .error e) :
    e = unsupported g source (row + offset) := by
  unfold underControl at failed
  split at failed
  · exact (Except.error.inj failed).symm
  · exact (Except.error.inj failed).symm
  · split at failed
    · split at failed
      · cases failed
      · exact (Except.error.inj failed).symm
    · exact (Except.error.inj failed).symm

theorem column_of_underControl {g : Gate} {control : Nat}
    (failed : underControl source offset control row g = .error e) : e.column = source := by
  rw [error_of_underControl failed]
  rfl

theorem column_of_underControls {g : Gate} {first second : Nat}
    (failed : underControls source offset first second row g = .error e) : e.column = source := by
  unfold underControls at failed
  split at failed <;> cases failed
  rfl

/-- A payload without controls is blamed on its column unless the circuit in it fails. -/
theorem column_of_lowerGate {g : Gate} (failed : lowerGate source offset row g = .error e) :
    e.column = source ∨ ∃ body, g.body? = some body ∧
      lowerCircuit source (row + offset) body = .error e := by
  by_cases nonLocal : ∃ p, g.role = .nonLocal p
  · obtain ⟨p, role⟩ := nonLocal
    rw [lowerGate_of_nonLocal role] at failed
    cases failed
  have role : ∀ p, g.role ≠ .nonLocal p := fun p is => nonLocal ⟨p, is⟩
  cases exports : g.exports with
  | some e =>
    rw [lowerGate_of_exports role exports] at failed
    split at failed <;> cases failed
    exact .inl rfl
  | none =>
    cases nested : g.body? with
    | some body =>
      rw [lowerGate_of_nested (Gate.role_of_body? nested) exports] at failed
      exact .inr ⟨body, rfl, failed⟩
    | none =>
      rw [lowerGate_of_none role exports nested] at failed
      cases failed
      exact .inl rfl

theorem column_of_lowerPayload {controls : List (Nat × Bool)}
    (failed : lowerPayload source offset controls column = .error e) :
    e.column = source ∨ ∃ row g body, (row, g) ∈ Column.payload column ∧ g.body? = some body ∧
      lowerCircuit source (row + offset) body = .error e := by
  match controls with
  | [] =>
    simp only [lowerPayload, Except.bind_eq_error, Except.mapM_eq_error, pure, Except.pure,
      reduceCtorEq, and_false, exists_false, or_false] at failed
    obtain ⟨before, ⟨row, g⟩, after, parts, -, failed⟩ := failed
    have inside : (row, g) ∈ Column.payload column := by simp [parts]
    obtain here | ⟨body, nested, failed⟩ := column_of_lowerGate failed
    · exact .inl here
    · exact .inr ⟨row, g, body, inside, nested, failed⟩
  | [control] =>
    obtain ⟨-, q, -, -, -, failed⟩ := Except.mapM_eq_error.mp failed
    exact .inl (column_of_underControl failed)
  | first :: second :: _ =>
    obtain ⟨-, q, -, -, -, failed⟩ := Except.mapM_eq_error.mp failed
    exact .inl (column_of_underControls failed)

theorem lowerColumns_eq_error {columns : List (Column Gate)}
    (failed : lowerColumns source offset columns = .error e) :
    ∃ column ∈ columns, lowerColumn source offset column = .error e := by
  simp only [lowerColumns_eq, Except.bind_eq_error, Except.mapM_eq_error, pure, Except.pure,
    reduceCtorEq, and_false, exists_false, or_false] at failed
  obtain ⟨before, column, after, parts, -, failed⟩ := failed
  exact ⟨column, by simp [parts], failed⟩

/-- **Errors blame the outermost column**, however deep the gate is nested that cannot be lowered. -/
theorem column_of_lowerColumn (failed : lowerColumn source offset column = .error e) :
    e.column = source := by
  suffices all : ∀ c : Circuit, ∀ column ∈ c.columns, ∀ offset,
      lowerColumn source offset column = .error e → e.column = source from
    all ⟨0, [column]⟩ column List.mem_cons_self offset failed
  clear failed
  intro c
  induction c using Circuit.nesting_induction with
  | step c ih =>
    intro column isColumn offset failed
    simp only [lowerColumn, Except.bind_eq_error, pure, Except.pure, reduceCtorEq, and_false,
      exists_false, or_false] at failed
    obtain failed | ⟨frame, -, failed⟩ := failed
    · exact Frame.column_of_ofColumn failed
    · obtain here | ⟨row, g, body, inside, nested, failed⟩ := column_of_lowerPayload failed
      · exact here
      · rw [lowerCircuit_eq] at failed
        obtain ⟨inner, isInner, failed⟩ := lowerColumns_eq_error failed
        have here : c.At g :=
          ⟨column, isColumn, Column.mem_of_placed (List.mem_of_mem_filter inside)⟩
        exact ih g here body nested inner isInner _ failed

end

/-! ## Circuits -/

theorem lowerFrom_ok_iff (index : Nat) {columns : List (Column Gate)} :
    (∃ slices, lowerFrom index columns = .ok slices) ↔
      ∀ column ∈ columns, Column.Lowerable column := by
  induction columns generalizing index with
  | nil => simp [lowerFrom]
  | cons column rest ih =>
    rw [lowerFrom_cons, Except.exists_append_iff, ih, lowerColumn_ok_iff, List.forall_mem_cons]

/-- The first of the columns that is not lowerable is blamed. -/
theorem blame_of_lowerFrom {index : Nat} {columns : List (Column Gate)} {e : LoweringError}
    (failed : lowerFrom index columns = .error e) :
    ∃ k column, e.column = index + k ∧ columns[k]? = some column ∧ ¬ Column.Lowerable column ∧
      ∀ earlier ∈ columns.take k, Column.Lowerable earlier := by
  induction columns generalizing index with
  | nil => cases failed
  | cons column rest ih =>
    rw [lowerFrom_cons] at failed
    simp only [Except.bind_eq_error, pure, Except.pure, reduceCtorEq, and_false, exists_false,
      or_false] at failed
    obtain failed | ⟨slices, fine, failed⟩ := failed
    · refine ⟨0, column, column_of_lowerColumn failed, rfl, fun lowerable => ?_, nofun⟩
      obtain ⟨slices, fine⟩ := lowerColumn_ok_iff.mpr lowerable
      rw [failed] at fine
      cases fine
    · obtain ⟨k, other, blamed, found, stuck, earlier⟩ := ih failed
      refine ⟨k + 1, other, by omega, found, stuck, ?_⟩
      rw [List.take_succ_cons, List.forall_mem_cons]
      exact ⟨lowerColumn_ok_iff.mp ⟨slices, fine⟩, earlier⟩

namespace Circuit

theorem lower_ok_iff {c : Circuit} :
    (∃ p, c.lower = .ok p) ↔ ∀ column ∈ c.columns, Column.Lowerable column := by
  rw [← lowerFrom_ok_iff 0]
  simp only [lower_eq_ok, slices, exists_comm, exists_and_left, exists_eq', and_true]

theorem lower_eq_error {c : Circuit} {e : LoweringError} :
    c.lower = .error e ↔ lowerFrom 0 c.columns = .error e := by
  rw [lower_eq, slices]
  cases lowerFrom 0 c.columns <;> simp [Except.map]

/-- An error that blames a column is the error of that column, once all columns before it are
lowered. -/
theorem lower_eq_error_iff {c : Circuit} {i : Nat} {column : Column Gate} {e : LoweringError}
    (found : c.columns[i]? = some column)
    (earlier : ∀ other ∈ c.columns.take i, Column.Lowerable other) (blamed : e.column = i) :
    c.lower = .error e ↔ lowerColumn i 0 column = .error e := by
  have lt := (List.getElem?_eq_some_iff.mp found).1
  obtain ⟨before, fine⟩ := (lowerFrom_ok_iff 0).mpr earlier
  rw [lower_eq_error, Grid.columns_eq found, lowerFrom_around lt, fine]
  simp only [Except.ok_bind, Except.bind_eq_error, pure, Except.pure, reduceCtorEq, and_false,
    exists_false, or_false]
  refine ⟨fun failed => failed.resolve_right ?_, .inl⟩
  rintro ⟨slices, -, failed⟩
  obtain ⟨k, -, later, -⟩ := blame_of_lowerFrom failed
  omega

end Circuit

end CircuitGrid
