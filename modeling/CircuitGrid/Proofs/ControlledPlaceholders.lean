import CircuitGrid.Proofs.Description.TextRoundTrip
import CircuitGrid.Proofs.Editing
import CircuitGrid.Proofs.Emission

/-!
# Placeholders under controls

A placeholder is lowered to the operation between its ends, and a column with a control has none for
it. But a placeholder may be defined with operations of its own, as any gate may, and a control asks
for those: one with a controlled operation on three wires is lowered to it, on the control, its row
and the row below. All others are refused.

* `Column.upTo`, `Circuit.upTo`: the circuit as far as a slot;
* `Circuit.Accepted.lowersUnder_one`: the placeholders that are lowered under one control;
* **`Circuit.lower_placeholder_under_control`**: what becomes of placeholders under controls.
-/

namespace CircuitGrid

/-! ## Circuits as far as a slot -/

/-- The column without its payloads from a row downwards. -/
def Column.upTo (row : Nat) (column : Column Gate) : Column Gate :=
  column.mapIdx fun r cell => if r < row then cell else cell.filter fun g => !g.isPayload

/-- The circuit as far as a slot: the columns before it, and its own column with the frame and the
payloads above the slot. -/
def Circuit.upTo (c : Circuit) (i row : Nat) : Circuit :=
  ⟨c.wires, c.columns.take i ++ [Column.upTo row (c.column i)]⟩

namespace Column

variable {column : Column Gate} {row : Nat}

theorem placed_upTo : placed (upTo row column) =
    (placed column).filter fun q => decide (q.1 < row) || !q.2.isPayload := by
  refine placed_eq ((pairwise_placed column).sublist List.filter_sublist) fun r g => ?_
  rw [List.mem_filter, mem_placed, mem_placed, upTo, List.getElem?_mapIdx]
  by_cases above : r < row
  · simp [above]
  · simp [above, Option.filter_eq_some_iff]

/-- Controls are no payloads, so that none of them is left out. -/
theorem controlCount_upTo (row : Nat) : controlCount (upTo row column) = controlCount column := by
  rw [controlCount, placed_upTo, List.countP_filter, controlCount]
  refine List.countP_congr fun q _ => ?_
  by_cases control : q.2.isControl <;> simp [control, Gate.isPayload, Gate.hasNoEffect]

theorem swapCount_upTo (row : Nat) : swapCount (upTo row column) = swapCount column := by
  rw [swapCount, placed_upTo, List.countP_filter, swapCount]
  refine List.countP_congr fun q _ => ?_
  by_cases half : q.2.isSwapHalf <;> simp [half, Gate.isPayload]

theorem mem_payload_upTo {r : Nat} {g : Gate} :
    (r, g) ∈ payload (upTo row column) ↔ (r, g) ∈ payload column ∧ r < row := by
  simp only [payload, placed_upTo, List.mem_filter]
  grind

theorem framed_upTo : Framed (upTo row column) ↔ Framed column := by
  have parity : (∀ r g axis, (r, g) ∈ placed (upTo row column) → g.role ≠ .parity axis) ↔
      ∀ r g axis, (r, g) ∈ placed column → g.role ≠ .parity axis := by
    refine forall₃_congr fun r g axis => ?_
    rw [placed_upTo, List.mem_filter]
    refine ⟨fun none inside role => none ⟨inside, ?_⟩ role, fun none inside => none inside.1⟩
    simp [Gate.isPayload, Gate.hasNoEffect, Gate.isControl, role]
  constructor
  · rintro ⟨none, few, paired, single⟩
    rw [controlCount_upTo] at few single
    rw [swapCount_upTo] at paired single
    exact ⟨parity.mp none, few, paired, single⟩
  · rintro ⟨none, few, paired, single⟩
    rw [← controlCount_upTo row] at few single
    rw [← swapCount_upTo row] at paired single
    exact ⟨parity.mpr none, few, paired, single⟩

/-- Under one control a column is lowered as far as a row when it has a frame and all payloads above
the row have a controlled operation. -/
theorem lowerable_upTo (one : controlCount column = 1) :
    Lowerable (upTo row column) ↔ Framed column ∧
      ∀ r g, (r, g) ∈ payload column → r < row → g.LowersUnder 1 := by
  have one' : controlCount (upTo row column) = 1 := (controlCount_upTo row).trans one
  constructor
  · rintro ⟨framed, operations, -⟩
    rw [one'] at operations
    exact ⟨framed_upTo.mp framed, fun r g inside above =>
      operations r g (mem_payload_upTo.mpr ⟨inside, above⟩)⟩
  · rintro ⟨framed, operations⟩
    refine .intro (framed_upTo.mpr framed) (fun r g inside => ?_) fun none => ?_
    · rw [one']
      obtain ⟨inside, above⟩ := mem_payload_upTo.mp inside
      exact operations r g inside above
    · rw [one'] at none
      cases none

end Column

/-! ## Columns with one control -/

section

variable {source offset : Nat} {column : Column Gate}

theorem Column.exists_condition (framed : Framed column) (one : controlCount column = 1) :
    ∃ r control bit, (placed column).filter (·.2.isControl) = [(r, control)] ∧
      control.controlBit = some bit ∧ conditions offset column = [(r + offset, bit)] := by
  rw [controlCount, List.countP_eq_length_filter] at one
  obtain ⟨⟨r, control⟩, only⟩ := List.length_eq_one_iff.mp one
  have found : (r, control) ∈ (placed column).filter (·.2.isControl) := by
    rw [only]
    exact List.mem_singleton_self _
  obtain ⟨inside, isControl⟩ := List.mem_filter.mp found
  have plain := (Gate.controlBit_isSome isControl).mpr fun axis =>
    framed.parity r control axis inside
  obtain ⟨bit, isBit⟩ := Option.isSome_iff_exists.mp plain
  refine ⟨r, control, bit, only, isBit, ?_⟩
  rw [conditions_eq_filter, only]
  simp [isBit]

/-- A column with one control is its frame around the controlled operations of its payload. -/
theorem exists_frame_of_control (source offset : Nat) (framed : Column.Framed column)
    (one : Column.controlCount column = 1) :
    ∃ (frame : Frame) (r : Nat) (control : Gate) (bit : Bool),
      (Column.placed column).filter (·.2.isControl) = [(r, control)] ∧
      control.controlBit = some bit ∧
        lowerColumn source offset column = do
          return frame.wrap (← (Column.payload column).mapM fun (row, gate) =>
            underControl source offset (r + offset) row gate) := by
  obtain ⟨frame, isFrame⟩ : ∃ frame, Frame.ofColumn source offset column = .ok frame :=
    Frame.ofColumn_ok_iff.mpr framed
  obtain ⟨r, control, bit, only, isBit, condition⟩ := Column.exists_condition framed one
  refine ⟨frame, r, control, bit, only, isBit, ?_⟩
  obtain ⟨-, same, -⟩ := Frame.ofColumn_eq_ok.mp isFrame
  have controls : frame.controls = [(r + offset, bit)] := by rw [same, condition]
  rw [lowerColumn, isFrame, Except.ok_bind, controls, lowerPayload]

/-- Below payloads that are lowered, a payload is blamed exactly when it cannot be lowered itself. -/
theorem lowerColumn_eq_error_iff (framed : Column.Framed column)
    (one : Column.controlCount column = 1) {row : Nat} {g : Gate}
    (inside : (row, g) ∈ Column.payload column)
    (above : ∀ r h, (r, h) ∈ Column.payload column → r < row → h.LowersUnder 1) :
    lowerColumn source offset column = .error (unsupported g source (row + offset)) ↔
      ¬ g.LowersUnder 1 := by
  obtain ⟨frame, control, -, -, -, -, lowered⟩ :=
    exists_frame_of_control source offset framed one
  rw [lowered]
  simp only [Except.bind_eq_error, pure, Except.pure, reduceCtorEq, and_false, exists_false,
    or_false, Except.mapM_eq_error]
  constructor
  · rintro ⟨before, ⟨r, h⟩, after, parts, -, failed⟩
    have other : (r, h) ∈ Column.payload column := by simp [parts]
    -- The error names a wire, and no other gate stands in its row.
    have same := error_of_underControl failed
    simp only [unsupported, LoweringError.unsupportedGate.injEq, Nat.add_right_cancel_iff] at same
    obtain ⟨-, -, rfl⟩ := same
    rw [Column.placed_unique (List.mem_of_mem_filter inside) (List.mem_of_mem_filter other)]
    intro operation
    obtain ⟨slice, fine⟩ :
        ∃ slice, underControl source offset (control + offset) row h = .ok slice :=
      underControl_ok_iff.mpr operation
    rw [failed] at fine
    cases fine
  · intro stuck
    obtain ⟨before, after, parts⟩ := List.append_of_mem inside
    refine ⟨before, (row, g), after, parts, fun q h => ?_, ?_⟩
    · have rising := (Column.pairwise_placed column).sublist
        (List.filter_sublist (p := (·.2.isPayload)))
      rw [show (Column.placed column).filter (·.2.isPayload) = _ from parts] at rising
      have below := (List.pairwise_append.mp rising).2.2 q h (row, g) List.mem_cons_self
      exact underControl_ok_iff.mpr (above q.1 q.2 (by simp [parts, h]) below)
    · cases failed : underControl source offset (control + offset) row g with
      | ok slice => exact absurd (underControl_ok_iff.mp ⟨slice, failed⟩) stuck
      | error e => rw [error_of_underControl failed]

end

/-! ## Placeholders of descriptions -/

theorem Gate.LowersUnder.eq_one_of_placeholder {g : Gate} {count : Nat}
    (operation : g.LowersUnder count) {payload : Placeholder} (role : g.role = .nonLocal payload)
    (some : count ≠ 0) : count = 1 := by
  match count, operation with
  | 0, _ => exact absurd rfl some
  | 1, _ => rfl
  | _ + 2, operation => simp [LowersUnder, isPlain, role] at operation

namespace Circuit

variable {c : Circuit} {g : Gate} {payload : Placeholder}

/-- A placeholder of a description is as tall as a gate of two rows, and it is never marked as a
spacer. -/
theorem Accepted.placeholder (accepted : c.Accepted) (held : c.Holds g)
    (role : g.role = .nonLocal payload) : g.height = 2 ∧ g.isPayload := by
  obtain known | definable := accepted.gate held
  · have none := Catalog.passes known (·.placeholder?.isNone) rfl
    simp [Gate.placeholder?, role] at none
  · cases definable <;> cases role
    exact ⟨rfl, rfl⟩

theorem Accepted.lowersUnder_one (accepted : c.Accepted) (held : c.Holds g)
    (role : g.role = .nonLocal payload) : g.LowersUnder 1 ↔
      ∃ e op, g.exports = some e ∧ e.controlled = some op ∧ op.arity = 3 := by
  have flat : g.body? = none := Gate.body?_eq_none (by simp [role])
  rw [Gate.LowersUnder, (accepted.placeholder held role).1]
  exact and_iff_right flat

/-- In a column that is lowered under controls a placeholder is lowered to the operation that it
brings along. -/
theorem Accepted.exists_operation (accepted : c.Accepted) (held : c.Holds g)
    (role : g.role = .nonLocal payload) {source offset row : Nat} {column : Column Gate}
    {slices : List Slice} (lowered : lowerColumn source offset column = .ok slices)
    (inside : (row, g) ∈ Column.placed column) (under : ∃ q ∈ Column.placed column, q.2.isControl) :
    ∃ r control e op, (Column.placed column).filter (·.2.isControl) = [(r, control)] ∧
      control.controlBit.isSome ∧ g.exports = some e ∧ e.controlled = some op ∧ op.arity = 3 ∧
        (⟨op, [r + offset, row + offset, row + offset + 1], e.controlledParams, none⟩ : Operation) ∈
          slices.flatten := by
  obtain ⟨height, isPayload⟩ := accepted.placeholder held role
  have inside : (row, g) ∈ Column.payload column := List.mem_filter.mpr ⟨inside, isPayload⟩
  obtain ⟨framed, operations, -⟩ := lowerColumn_ok_iff_parts.mp ⟨slices, lowered⟩
  have operation := operations row g inside
  have one : Column.controlCount column = 1 := by
    refine operation.eq_one_of_placeholder role fun none => ?_
    obtain ⟨q, inside, isControl⟩ := under
    exact Column.controlCount_eq_zero.mp none q inside isControl
  rw [one, accepted.lowersUnder_one held role] at operation
  obtain ⟨e, op, exports, known, arity⟩ := operation
  obtain ⟨frame, r, control, bit, only, isBit, parts⟩ :=
    exists_frame_of_control source offset framed one
  rw [lowered, eq_comm] at parts
  simp only [Except.bind_eq_ok, Except.mapM_eq_ok, pure, Except.pure, Except.ok.injEq] at parts
  obtain ⟨payload, each, rfl⟩ := parts
  obtain ⟨slice, inPayload, found⟩ := exists_right_of_mem each inside
  have flat : g.body? = none := Gate.body?_eq_none (by simp [role])
  rw [underControl_of_controlled flat exports known (by rw [arity, height]), height,
    Except.ok.injEq] at found
  refine ⟨r, control, e, op, only, by rw [isBit]; rfl, exports, known, arity, ?_⟩
  refine List.mem_flatten.mpr ⟨slice, ?_, by rw [← found]; exact List.mem_singleton_self _⟩
  simp [Frame.wrap, inPayload]

/-- **What becomes of placeholders under controls** in the circuit of a description. When the circuit
is lowered, a placeholder in one of its columns stands under one control, not of parity, and brings a
controlled operation on three wires along. It is lowered to that operation, on the control, its row
and the row below, whichever its two ends are. When all that comes before a placeholder under one
control is lowered, the placeholder is refused exactly if it brings no such operation along. -/
theorem lower_placeholder_under_control {text : String} (read : ofText text = .ok c) :
    (∀ p, c.lower = .ok p → ∀ first column, c.Reaches 0 first column → ∀ row g payload,
      (row, g) ∈ Column.placed column → g.role = .nonLocal payload →
        (∃ q ∈ Column.placed column, q.2.isControl) →
          ∃ r control e op, (Column.placed column).filter (·.2.isControl) = [(r, control)] ∧
            control.controlBit.isSome ∧ g.exports = some e ∧ e.controlled = some op ∧
              op.arity = 3 ∧ ∃ i ∈ p.instructions, i.toOperation =
                ⟨op, [r + first, row + first, row + first + 1], e.controlledParams, none⟩) ∧
    ∀ i row g payload, c.cell? i row = some g → g.role = .nonLocal payload →
      Column.controlCount (c.column i) = 1 → (∃ p, (c.upTo i row).lower = .ok p) →
        (c.lower = .error (.unsupportedGate g.name i row) ↔
          ∀ e op, g.exports = some e → e.controlled = some op → op.arity ≠ 3) := by
  have accepted := accepted_of_ofText read
  constructor
  · intro p lowered first column reaches row g payload inside role under
    obtain ⟨source, part, column, isInstruction⟩ := reaches.exists_lowerColumn lowered
    have held := reaches.layer.holds (Column.mem_of_placed inside)
    obtain ⟨r, control, e, op, only, bit, exports, known, arity, emitted⟩ :=
      accepted.exists_operation held role column inside under
    exact ⟨r, control, e, op, only, bit, exports, known, arity, isInstruction _ emitted⟩
  · intro i row g payload found role one ⟨p, before⟩
    obtain ⟨column, isColumn, inside⟩ := cell?_eq_some.mp found
    have held : c.Holds g :=
      .here ⟨column, List.mem_of_getElem? isColumn, Column.mem_of_placed inside⟩
    have here : c.column i = column := by rw [Grid.column, isColumn, Option.getD_some]
    have lowerable := lower_ok_iff.mp ⟨p, before⟩
    rw [here] at one
    simp only [upTo, here, List.mem_append, List.mem_singleton, or_imp, forall_and,
      forall_eq] at lowerable
    obtain ⟨earlier, own⟩ := lowerable
    obtain ⟨framed, above⟩ := (Column.lowerable_upTo one).mp own
    have inside : (row, g) ∈ Column.payload column :=
      List.mem_filter.mpr ⟨inside, (accepted.placeholder held role).2⟩
    rw [lower_eq_error_iff isColumn earlier rfl]
    refine (lowerColumn_eq_error_iff framed one inside above).trans ?_
    rw [accepted.lowersUnder_one held role]
    push Not
    rfl

/-- A placeholder under a control, below a gate that is lowered, brings an operation on two wires
along and is refused. -/
theorem lower_placeholder_under_control_refused :
    let text := "\x7b\"cols\":[[\"H\",\"•\"],[\"X\",\"P\",1,\"•\"]],\"gates\":[" ++
      "\x7b\"id\":\"P\",\"export\":\x7b\"uncontrolled\":\"x\",\"controlled\":\"cx\"\x7d," ++
      "\"nonlocal\":\x7b\"kind\":\"cx\",\"source\":1,\"target\":2,\"link\":[4,5]\x7d\x7d]\x7d"
    ∃ c, ofText text = .ok c ∧ c.lower = .error (.unsupportedGate "NL-CNOT(1→2)" 1 1) := by
  intro text
  have checked : (ofText text).toOption.any (fun c : Circuit => (c.cell? 1 1).any fun g =>
      decide (g.name = "NL-CNOT(1→2)") && g.placeholder?.isSome &&
        g.exports.all (fun e => e.controlled.all fun op => op.arity ≠ 3) &&
          decide (Column.controlCount (c.column 1) = 1) &&
            (c.upTo 1 1).lower.toOption.isSome) = true := by
    rw [ofText_spelled text (spelled_append (spelled_append rfl rfl) rfl)]
    decide +kernel
  obtain ⟨c, read, checked⟩ := (Option.any_eq_true _ _).mp checked
  obtain ⟨g, found, checked⟩ := (Option.any_eq_true _ _).mp checked
  simp only [Bool.and_eq_true, decide_eq_true_eq, Option.isSome_iff_exists,
    Gate.placeholder?_eq_some, Except.toOption_eq_some, Option.all_eq_true] at read checked
  obtain ⟨⟨⟨⟨name, payload, role⟩, two⟩, one⟩, before⟩ := checked
  refine ⟨c, read, ?_⟩
  rw [← name]
  exact ((lower_placeholder_under_control read).2 1 1 g payload found role one before).mpr
    fun e op exports known => two e exports op known

/-- **A placeholder that is lowered under a control**: it brings an operation on three wires
along. -/
theorem not_error_of_placeholder_under_control :
    ¬ ∀ (text : String) (c : Circuit), ofText text = .ok c →
      (∃ column ∈ c.columns, (∃ q ∈ Column.placed column, q.2.isControl) ∧
        ∃ q ∈ Column.placed column, q.2.placeholder?.isSome) → ∃ e, c.lower = .error e := by
  intro all
  let text := "\x7b\"cols\":[[\"•\",\"P\",1]],\"gates\":[" ++
    "\x7b\"id\":\"P\",\"export\":\x7b\"uncontrolled\":\"cx\",\"controlled\":\"ccx\"\x7d," ++
    "\"nonlocal\":\x7b\"kind\":\"cx\",\"source\":1,\"target\":2,\"link\":[3,4]\x7d\x7d]\x7d"
  have checked : (ofText text).toOption.any (fun c : Circuit => c.lower.toOption.isSome &&
      c.columns.any fun column => (Column.placed column).any (·.2.isControl) &&
        (Column.placed column).any (·.2.placeholder?.isSome)) = true := by
    rw [ofText_spelled text (spelled_append (spelled_append rfl rfl) rfl)]
    decide +kernel
  obtain ⟨c, read, checked⟩ := (Option.any_eq_true _ _).mp checked
  simp only [Bool.and_eq_true, Option.isSome_iff_exists, Except.toOption_eq_some,
    List.any_eq_true] at read checked
  obtain ⟨⟨p, lowered⟩, column, isColumn, control, placeholder⟩ := checked
  simp only [Option.isSome_iff_exists] at all
  obtain ⟨e, failed⟩ := all text c read ⟨column, isColumn, control, placeholder⟩
  rw [lowered] at failed
  cases failed

end Circuit

end CircuitGrid
