import CircuitGrid.Proofs.BuiltIn
import CircuitGrid.Proofs.Linking
import CircuitGrid.Proofs.Lowering

/-!
# Linking a circuit keeps its program

A placeholder is lowered to what its site was: a tall gate to its own operation, a control with the
gate under it to the controlled operation. Only the label tells the difference. The other cells of
the column stay, and so do their slices and the first error among them.

* `Program.outline`: the instructions of a program without their labels;
* `Gate.Idle`, `lowerColumn_of_single`: lowering passes over idle cells;
* `lowerColumn_linked`: one column;
* **`Circuit.lower_link`**: the whole circuit, for every partition.
-/

namespace CircuitGrid

/-! ## Programs without labels -/

/-- An operation without its label. -/
def Operation.bare (o : Operation) : Operation := { o with label := none }

/-- What an instruction does, in which output column. -/
def Instruction.outline (i : Instruction) : Op × Nat × List Nat × List Float :=
  (i.op, i.column, i.wires, i.params)

/-- The instructions of a program without their labels. -/
def Program.outline (p : Program) : List (Op × Nat × List Nat × List Float) :=
  p.instructions.map Instruction.outline

/-- Slices without labels. -/
def bareSlice (slice : Slice) : Slice := slice.map Operation.bare

theorem outline_numberSlices (column : Nat) (slices : List Slice) :
    (numberSlices column slices).map Instruction.outline =
      (numberSlices column (slices.map bareSlice)).map Instruction.outline := by
  induction slices generalizing column with
  | nil => rfl
  | cons slice rest ih =>
    rw [List.map_cons, numberSlices, numberSlices, List.map_append, List.map_append, ih]
    congr 1
    simp only [bareSlice, List.map_map]
    rfl

/-- Slices that differ in labels only are programs that differ in labels only. -/
theorem Circuit.outline_lower {c c' : Circuit}
    (h : c.slices.map (List.map bareSlice) = c'.slices.map (List.map bareSlice)) :
    c.lower.map Program.outline = c'.lower.map Program.outline := by
  rw [lower_eq, lower_eq]
  generalize c.slices = x at h
  generalize c'.slices = y at h
  cases x with
  | error e =>
    cases y with
    | error e' =>
      cases h
      rfl
    | ok b => cases h
  | ok a =>
    cases y with
    | error e' => cases h
    | ok b =>
      have same : a.map bareSlice = b.map bareSlice := Except.ok.inj h
      change Except.ok ((numberSlices 0 a).map Instruction.outline) =
        Except.ok ((numberSlices 0 b).map Instruction.outline)
      rw [outline_numberSlices 0 a, outline_numberSlices 0 b, same]

/-! ## Columns with the same gates -/

/-- Lowering sees the gates of a column with their rows, and nothing else. -/
theorem lowerColumn_congr {source offset : Nat} {column column' : Column Gate}
    (same : Column.placed column' = Column.placed column) :
    lowerColumn source offset column' = lowerColumn source offset column := by
  simp only [lowerColumn, Frame.ofColumn, lowerPayload, Column.payload, same]

theorem filter_map_eq {α : Type} {f : α → α} {test : α → Bool} {xs : List α}
    (h : ∀ x ∈ xs, test (f x) = test x) : (xs.map f).filter test = (xs.filter test).map f := by
  rw [List.filter_map]
  exact congrArg (List.map f) (List.filter_congr h)

theorem Frame.map_swap_congr (frame : Frame) {x y : Except LoweringError (List (List Slice))}
    (h : x.map (List.map (List.map bareSlice)) = y.map (List.map (List.map bareSlice))) :
    (do return frame.swap ++ (← x).flatten : Except LoweringError (List Slice)).map
        (List.map bareSlice) =
      (do return frame.swap ++ (← y).flatten).map (List.map bareSlice) := by
  cases x <;> cases y <;>
    simp_all [Except.map, bind, Except.bind, pure, Except.pure, List.map_flatten]

theorem lowerColumn_map {source offset : Nat} {column column' : Column Gate}
    {f : Nat × Gate → Nat × Gate} (same : Column.placed column' = (Column.placed column).map f)
    (row : ∀ q, (f q).1 = q.1) (free : ∀ q ∈ Column.placed column, ¬ q.2.isControl)
    (free' : ∀ q ∈ Column.placed column, ¬ (f q).2.isControl)
    (swap : ∀ q ∈ Column.placed column, (f q).2.isSwapHalf = q.2.isSwapHalf)
    (payload : ∀ q ∈ Column.placed column, (f q).2.isPayload = q.2.isPayload)
    (each : ∀ q ∈ Column.placed column, q.2.isPayload →
      (lowerGate source offset (f q).1 (f q).2).map (List.map bareSlice) =
        (lowerGate source offset q.1 q.2).map (List.map bareSlice)) :
    (lowerColumn source offset column').map (List.map bareSlice) =
      (lowerColumn source offset column).map (List.map bareSlice) := by
  have swaps : Column.swapWires offset column' = Column.swapWires offset column := by
    rw [Column.swapWires, same, filter_map_eq swap, List.map_map]
    exact List.map_congr_left fun q _ => congrArg (· + offset) (row q)
  have payloads : Column.payload column' = (Column.payload column).map f := by
    rw [Column.payload, same, filter_map_eq payload, Column.payload]
  have free' : ∀ q ∈ Column.placed column', ¬ q.2.isControl := by
    rw [same]
    intro q h
    obtain ⟨before, inside, rfl⟩ := List.mem_map.mp h
    exact free' before inside
  rw [lowerColumn_of_free free, lowerColumn_of_free free', swaps, payloads]
  cases Frame.checked source [] (Column.swapWires offset column) with
  | error e => rfl
  | ok frame =>
    rw [Except.ok_bind, Except.ok_bind]
    refine Frame.map_swap_congr frame ?_
    rw [List.mapM_map]
    refine Except.map_mapM_congr fun q h => ?_
    obtain ⟨placed, isPayload⟩ := List.mem_filter.mp h
    exact each q placed isPayload

/-! ## Tall sites -/

/-- A built-in gate, a nested circuit or a placeholder. -/
def Gate.isStandard (g : Gate) : Bool := isBuiltIn g || g.body?.isSome || g.placeholder?.isSome

theorem Gate.isBuiltIn_of_unitary {g : Gate} (standard : g.isStandard) (role : g.role = .unitary) :
    isBuiltIn g := by
  simpa [isStandard, body?, placeholder?, role] using standard

/-- What stands in the place of a gate once the tall sites are replaced. -/
def Column.replaced (links : List Link) (sites : List Site) (q : Nat × Gate) : Nat × Gate :=
  match sites.find? (·.source = q.1) with
  | some s => match s.link? links with
    | some link => (q.1, s.placeholder link)
    | none => q
  | none => q

section

variable {p : Partition} {index wires count : Nat} {column : Column Gate} {links : List Link}

theorem Column.replaced_fst {sites : List Site} (q : Nat × Gate) :
    (replaced links sites q).1 = q.1 := by
  unfold replaced
  split
  · split <;> rfl
  · rfl

variable (fits : Column.Fits wires column) (free : ∀ q ∈ Column.placed column, ¬ q.2.isControl)
  (linked : ∀ s ∈ Column.sites p index column, ∃ link, s.link? links = some link)
include fits free linked

theorem Column.replaced_cases {q : Nat × Gate} (h : q ∈ placed column) :
    (∃ s ∈ sites p index column, ∃ link, s.link? links = some link ∧ IsTall column s q.2 ∧
      s.source = q.1 ∧ replaced links (sites p index column) q = (q.1, s.placeholder link)) ∨
      ((∀ s ∈ sites p index column, q.1 ∉ s.rows) ∧
        replaced links (sites p index column) q = q) := by
  unfold replaced
  cases found : (sites p index column).find? (·.source = q.1) with
  | some s =>
    left
    have isSite := List.mem_of_find?_eq_some found
    have row : s.source = q.1 := by simpa using List.find?_some found
    obtain ⟨link, isLink⟩ := linked s isSite
    obtain ⟨g, tall⟩ := isTall_of_mem_sites free isSite
    have same : g = q.2 := by
      have placed := tall.placed
      rw [row] at placed
      exact placed_unique placed h
    rw [same] at tall
    exact ⟨s, isSite, link, isLink, tall, row, by simp [isLink]⟩
  | none =>
    right
    refine ⟨fun s isSite inside => ?_, rfl⟩
    obtain ⟨g, tall⟩ := isTall_of_mem_sites free isSite
    have covers : q.1 ∈ g.rowsAt s.source := by
      rw [tall.rowsAt, ← (mem_sites.mp isSite).2.1]
      exact inside
    have same := fits.unique tall.placed h covers (fits.own_row _ _ h)
    have away := List.find?_eq_none.mp found s isSite
    simp only [decide_eq_true_eq] at away
    exact away (congrArg (·.1) same)

theorem Column.placed_linked : placed (putLinks links (sites p index column)
    (column ++ List.replicate count none)) =
      (placed column).map (replaced links (sites p index column)) := by
  apply placed_eq
  · rw [List.pairwise_map]
    refine (pairwise_placed column).imp fun {q q'} below => ?_
    rw [replaced_fst, replaced_fst]
    exact below
  · intro row g
    rw [fits.apart.replaces_putLinks count linked row g, List.mem_map]
    constructor
    · rintro ⟨q, h, same⟩
      obtain ⟨s, isSite, link, isLink, tall, here, new⟩ | ⟨outside, old⟩ :=
        replaced_cases fits free linked h
      · rw [new, Prod.mk.injEq] at same
        have top : s.top = s.source := by
          rw [Site.top, tall.target]
          omega
        exact .inl ⟨s, isSite, link, isLink, by rw [top, here, same.1], same.2.symm⟩
      · rw [old] at same
        rw [same] at outside h
        exact .inr ⟨outside, h⟩
    · rintro (⟨s, isSite, link, isLink, rfl, rfl⟩ | ⟨outside, h⟩)
      · obtain ⟨g, tall⟩ := isTall_of_mem_sites free isSite
        have top : s.top = s.source := by
          rw [Site.top, tall.target]
          omega
        have rows (t : Site) (h : t ∈ sites p index column) : t.source ∈ t.rows := by
          rw [(mem_sites.mp h).2.1]
          exact List.mem_cons_self
        refine ⟨(s.source, g), tall.placed, ?_⟩
        obtain ⟨t, isSite', link', isLink', -, row, new⟩ | ⟨outside, -⟩ :=
          replaced_cases fits free linked tall.placed
        · have inside : s.source ∈ t.rows := by
            rw [← show t.source = s.source from row]
            exact rows t isSite'
          have same := fits.apart.sites_unique isSite isSite' (rows s isSite) inside
          rw [← same, isLink, Option.some.injEq] at isLink'
          rw [new, top, same, isLink']
        · exact absurd (rows s isSite) (outside s isSite)
      · refine ⟨(row, g), h, ?_⟩
        obtain ⟨s, isSite, link, isLink, tall, here, -⟩ | ⟨-, old⟩ :=
          replaced_cases fits free linked h
        · refine absurd ?_ (outside s isSite)
          rw [(mem_sites.mp isSite).2.1, here]
          exact List.mem_cons_self
        · exact old

theorem lowerColumn_linked_of_free (standard : ∀ q ∈ Column.placed column, q.2.isStandard)
    (source : Nat) :
    (lowerColumn source 0 (Column.putLinks links (Column.sites p index column)
        (column ++ List.replicate count none))).map (List.map bareSlice) =
      (lowerColumn source 0 column).map (List.map bareSlice) := by
  have cases {q : Nat × Gate} (h : q ∈ Column.placed column) :=
    Column.replaced_cases fits free linked h
  have acts {s : Site} {g : Gate} (tall : Column.IsTall column s g) :
      g.role = .unitary ∧ g.hasNoEffect = false := by
    obtain ⟨role, -, -⟩ := Gate.tallEntangler?_eq_some.mp tall.kind
    exact ⟨role, by simpa using tall.acts⟩
  apply lowerColumn_map (Column.placed_linked fits free linked) Column.replaced_fst free
  · intro q h
    obtain ⟨s, -, link, -, -, -, new⟩ | ⟨-, old⟩ := cases h
    · rw [new]
      exact Bool.false_ne_true
    · rw [old]
      exact free q h
  · intro q h
    obtain ⟨s, -, link, -, tall, -, new⟩ | ⟨-, old⟩ := cases h
    · rw [new, Gate.isSwapHalf, Gate.isSwapHalf, (acts tall).1]
      rfl
    · rw [old]
  · intro q h
    obtain ⟨s, -, link, -, tall, -, new⟩ | ⟨-, old⟩ := cases h
    · rw [new, Gate.isPayload, Gate.isPayload, (acts tall).2, Gate.isSwapHalf, Gate.isSwapHalf,
        (acts tall).1]
      rfl
    · rw [old]
  · intro q h payload
    obtain ⟨s, -, link, -, tall, row, new⟩ | ⟨-, old⟩ := cases h
    · obtain ⟨role, height, known⟩ := Gate.tallEntangler?_eq_some.mp tall.kind
      have exports := Gate.exports_of_entangler
        (Gate.isBuiltIn_of_unitary (standard q h) role) known
      have arity : s.kind.op.arity = 2 := by cases s.kind <;> rfl
      rw [new, lowerGate_of_nonLocal rfl, lowerGate_of_exports (by simp [role]) exports, height,
        if_pos arity]
      simp only [Except.map, List.map_cons, List.map_nil, bareSlice, Operation.bare]
      rw [← row]
      simp only [tall.target]
      rfl
    · rw [old]

end

/-! ## Controlled sites -/

/-- Neither a control nor a swap half, and without effect: lowering passes over the cell. -/
def Gate.Idle (g : Gate) : Prop := ¬ g.isControl ∧ g.hasNoEffect ∧ ¬ g.isSwapHalf

theorem Gate.acts_of_isSwapHalf {g : Gate} (standard : g.isStandard) (half : g.isSwapHalf) :
    ¬ g.hasNoEffect := by
  have role : g.role = .swapHalf := by
    unfold isSwapHalf at half
    split at half
    · next role => exact role
    · cases half
  have builtIn : isBuiltIn g := by
    simpa [isStandard, body?, placeholder?, role] using standard
  simp [hasNoEffect, isControl, inert_of_swapHalf builtIn role, role]

section

variable {source offset row : Nat} {column : Column Gate} {g : Gate}

theorem Column.swapWires_eq_nil (noSwap : ∀ q ∈ placed column, ¬ q.2.isSwapHalf) :
    swapWires offset column = [] := by
  rw [swapWires, List.filter_eq_nil_iff.mpr noSwap, List.map_nil]

theorem lowerColumn_of_idle (idle : ∀ q ∈ Column.placed column, q.2.Idle) :
    lowerColumn source offset column = .ok [] := by
  have payloads : Column.payload column = [] :=
    List.filter_eq_nil_iff.mpr fun q h => by simp [Gate.isPayload, (idle q h).2.1]
  rw [lowerColumn_of_free fun q h => (idle q h).1,
    Column.swapWires_eq_nil fun q h => (idle q h).2.2, payloads]
  rfl

theorem lowerColumn_of_single (inside : (row, g) ∈ Column.placed column) (isPayload : g.isPayload)
    (idle : ∀ q ∈ Column.placed column, q = (row, g) ∨ q.2.Idle) :
    lowerColumn source offset column = lowerGate source offset row g := by
  obtain ⟨noSwap, acts⟩ : ¬ g.isSwapHalf ∧ ¬ g.hasNoEffect := by
    simpa [Gate.isPayload] using isPayload
  have free : ∀ q ∈ Column.placed column, ¬ q.2.isControl := by
    intro q h
    obtain rfl | ⟨free, -, -⟩ := idle q h
    · exact fun control => acts (by simp [Gate.hasNoEffect, control])
    · exact free
  have noSwap : ∀ q ∈ Column.placed column, ¬ q.2.isSwapHalf := by
    intro q h
    obtain rfl | ⟨-, -, other⟩ := idle q h
    · exact noSwap
    · exact other
  have payloads : Column.payload column = [(row, g)] := by
    refine Column.filter_placed_eq_singleton inside fun q h => ⟨fun isPayload => ?_, ?_⟩
    · obtain same | ⟨-, idle, -⟩ := idle q h
      · exact same
      · simp [Gate.isPayload, idle] at isPayload
    · rintro rfl
      exact isPayload
  rw [lowerColumn_of_free free, Column.swapWires_eq_nil noSwap, payloads, List.mapM_cons,
    List.mapM_nil]
  dsimp only
  cases lowerGate source offset row g with
  | error e => rfl
  | ok slices => exact congrArg Except.ok (List.append_nil slices)

end

section

variable {p : Partition} {index wires count : Nat} {column : Column Gate} {links : List Link}
  {s : Site} {control payload : Gate}

/-- What stands under the control of a site is lowered to the entangling operation. -/
theorem Column.IsControlled.underControl_eq (under : IsControlled column s control payload)
    (standard : payload.isStandard) (source offset wire : Nat) :
    underControl source offset wire s.target payload =
      .ok [{ op := s.kind.op, wires := [wire, s.target + offset] }] := by
  have plain {op : Op} (h : payload.isPlain op) : payload.role = .unitary ∧ payload.height = 1 ∧
      ∃ e, isBuiltIn payload ∧ payload.exports = some e ∧ e.uncontrolled = op := by
    obtain ⟨role, height, e, exports, same, -⟩ := Gate.isPlain_iff.mp h
    exact ⟨role, height, e, Gate.isBuiltIn_of_unitary standard role, exports, same⟩
  obtain ⟨kind, h⟩ | ⟨kind, h⟩ := Gate.controlledEntangler?_eq_some under.kind
  · obtain ⟨role, height, e, builtIn, exports, same⟩ := plain h
    have known := (Gate.exports_of_plain builtIn exports).1 same
    simp only [underControl, role, exports, known, height, kind]
    rfl
  · obtain ⟨role, height, e, builtIn, exports, same⟩ := plain h
    have known := (Gate.exports_of_plain builtIn exports).2 same
    simp only [underControl, role, exports, known, height, kind]
    rfl

section

variable (under : Column.IsControlled column s control payload)
  (halves : ∀ q ∈ Column.placed column, q.2.isSwapHalf → ¬ q.2.hasNoEffect)
include under halves

theorem Column.IsControlled.idle {row : Nat} {g : Gate} (h : (row, g) ∈ placed column)
    (source : row ≠ s.source) (target : row ≠ s.target) : g.Idle := by
  obtain ⟨noControl, idle⟩ := under.rest h source target
  exact ⟨noControl, idle, fun half => halves _ h half idle⟩

theorem Column.IsControlled.cells {q : Nat × Gate} (h : q ∈ placed column) :
    q = (s.source, control) ∨ q = (s.target, payload) ∨ q.2.Idle := by
  obtain ⟨row, g⟩ := q
  by_cases source : row = s.source
  · subst source
    exact .inl (by rw [placed_unique h under.placed_control.1])
  · by_cases target : row = s.target
    · subst target
      exact .inr (.inl (by rw [placed_unique h under.placed_payload.1]))
    · exact .inr (.inr (under.idle halves h source target))

/-- A column that is a controlled site is lowered to what its payload is under the control. -/
theorem lowerColumn_of_controlled (source : Nat) : lowerColumn source 0 column = (do
    return [← underControl source 0 s.source s.target payload]) := by
  obtain ⟨placedPayload, acts⟩ := under.placed_payload
  have cells {q : Nat × Gate} (h : q ∈ Column.placed column) := under.cells halves h
  have conditions : Column.conditions 0 column = [(s.source, true)] := by
    rw [Column.conditions_eq_filter, under.one_control]
    simp [under.bit]
  have swaps : Column.swapWires 0 column = [] := by
    refine Column.swapWires_eq_nil fun q h => ?_
    obtain rfl | rfl | ⟨-, -, other⟩ := cells h
    · intro isSwap
      have bit := under.bit
      unfold Gate.controlBit at bit
      unfold Gate.isSwapHalf at isSwap
      split at isSwap <;> simp_all
    · simp [Gate.isSwapHalf, under.role_payload]
    · exact other
  have framed : Frame.ofColumn source 0 column = .ok ⟨[(s.source, true)], []⟩ := by
    rw [Frame.ofColumn_eq_ok, conditions, swaps]
    refine ⟨fun q h control => ?_, rfl, by simp, .inl rfl, fun _ => rfl⟩
    obtain rfl | rfl | ⟨other, -, -⟩ := cells h
    · rw [under.bit]
      rfl
    · simp [Gate.hasNoEffect, show payload.isControl from control] at acts
    · exact absurd control other
  have payloads : Column.payload column = [(s.target, payload)] := by
    refine Column.filter_placed_eq_singleton placedPayload fun q h => ⟨fun isPayload => ?_, ?_⟩
    · simp only [Gate.isPayload, Bool.and_eq_true] at isPayload
      have inside : q ∈ (Column.placed column).filter (!·.2.hasNoEffect) :=
        List.mem_filter.mpr ⟨h, isPayload.2⟩
      rw [under.one_payload, List.mem_singleton] at inside
      exact inside
    · rintro rfl
      simp [Gate.isPayload, Gate.isSwapHalf, under.role_payload, acts]
  rw [lowerColumn, framed, Except.ok_bind, lowerPayload, payloads, List.mapM_cons, List.mapM_nil]
  dsimp only
  cases underControl source 0 s.source s.target payload <;> rfl

end

/-- The placeholder of a controlled site is lowered to the entangling operation, too. -/
theorem lowerColumn_linked_of_controlled (fits : Column.Fits wires column)
    (under : Column.IsControlled column s control payload)
    (linked : ∀ s ∈ Column.sites p index column, ∃ link, s.link? links = some link)
    (isSite : s ∈ Column.sites p index column)
    (standard : ∀ q ∈ Column.placed column, q.2.isStandard) (source : Nat) :
    ∃ title, lowerColumn source 0 (Column.putLinks links (Column.sites p index column)
        (column ++ List.replicate count none)) =
      .ok [[{ op := s.kind.op, wires := [s.source, s.target], label := some title }]] := by
  obtain ⟨link, isLink⟩ := linked s isSite
  have rows := (Column.mem_sites.mp isSite).2.1
  have mem (row : Nat) (g : Gate) : (row, g) ∈ Column.placed (Column.putLinks links
      (Column.sites p index column) (column ++ List.replicate count none)) ↔ _ :=
    fits.apart.replaces_putLinks count linked row g
  generalize Column.putLinks links (Column.sites p index column)
    (column ++ List.replicate count none) = linkedColumn at mem ⊢
  have here : (s.top, s.placeholder link) ∈ Column.placed linkedColumn :=
    (mem s.top (s.placeholder link)).mpr (.inl ⟨s, isSite, link, isLink, rfl, rfl⟩)
  have idle : ∀ q ∈ Column.placed linkedColumn, q = (s.top, s.placeholder link) ∨ q.2.Idle := by
    intro q h
    obtain ⟨t, isSite', link', isLink', row, gate⟩ | ⟨outside, h⟩ := (mem q.1 q.2).mp h
    · left
      have same : s = t := by
        obtain ⟨-, rows', -, ⟨g, tall⟩ | ⟨control', payload', under'⟩⟩ := Column.mem_sites.mp isSite'
        · obtain ⟨inside, isControl⟩ := under.placed_control
          exact absurd isControl (tall.free _ inside)
        · have sameControl := under.one_control.symm.trans under'.one_control
          simp only [List.cons.injEq, Prod.mk.injEq, and_true] at sameControl
          refine fits.apart.sites_unique (r := s.source) isSite isSite' (by simp [rows]) ?_
          simp [rows', sameControl.1]
      subst same
      rw [isLink, Option.some.injEq] at isLink'
      rw [isLink', ← row, ← gate]
    · right
      have away := outside s isSite
      rw [rows, List.mem_pair, not_or] at away
      exact under.idle (fun q h => Gate.acts_of_isSwapHalf (standard q h)) h away.1 away.2
  refine ⟨(s.placeholder link).title, ?_⟩
  rw [lowerColumn_of_single here rfl idle, lowerGate_of_nonLocal (g := s.placeholder link) rfl]
  rfl

end

/-! ## Circuits -/

/-- **A column keeps its slices but for labels when its sites are replaced.** -/
theorem lowerColumn_linked {p : Partition} {index wires : Nat} {column : Column Gate}
    {links : List Link} (fits : Column.Fits wires column)
    (linked : ∀ s ∈ Column.sites p index column, ∃ link, s.link? links = some link)
    (standard : ∀ q ∈ Column.placed column, q.2.isStandard) (source count : Nat) :
    (lowerColumn source 0 (Column.putLinks links (Column.sites p index column)
        (column ++ List.replicate count none))).map (List.map bareSlice) =
      (lowerColumn source 0 column).map (List.map bareSlice) := by
  cases found : Column.sites p index column with
  | nil => rw [Column.putLinks, List.foldl_nil, lowerColumn_congr (Column.placed_append_blank _ _)]
  | cons s rest =>
    have isSite : s ∈ Column.sites p index column := by
      rw [found]
      exact List.mem_cons_self
    rw [← found]
    obtain ⟨-, -, -, ⟨g, tall⟩ | ⟨control, payload, under⟩⟩ := Column.mem_sites.mp isSite
    · exact lowerColumn_linked_of_free fits tall.free linked standard source
    · obtain ⟨title, same⟩ :=
        lowerColumn_linked_of_controlled fits under linked isSite standard source
      rw [same, lowerColumn_of_controlled under fun q h => Gate.acts_of_isSwapHalf (standard q h),
        under.underControl_eq (standard _ under.placed_payload.1)]
      rfl

/-- Columns that keep their slices one by one keep them together. -/
theorem lowerFrom_mapIdx {f : Nat → Column Gate → Column Gate} {columns : List (Column Gate)}
    {start : Nat}
    (each : ∀ i column, columns[i]? = some column → ∀ source,
      (lowerColumn source 0 (f i column)).map (List.map bareSlice) =
        (lowerColumn source 0 column).map (List.map bareSlice)) :
    (lowerFrom start (columns.mapIdx f)).map (List.map bareSlice) =
      (lowerFrom start columns).map (List.map bareSlice) := by
  induction columns generalizing f start with
  | nil => rfl
  | cons column rest ih =>
    rw [List.mapIdx_cons, lowerFrom_cons, lowerFrom_cons]
    refine Except.map_append_congr (each 0 column rfl start) (ih fun i other h => ?_)
    exact each (i + 1) other h

/-- **Linking a circuit keeps its program.** For every partition, a well-formed circuit of built-in
gates, nested circuits and placeholders is linked, and the outcome has the same program but for
labels and the number of wires, or no program for the same reason. -/
theorem Circuit.lower_link {c : Circuit} (valid : c.validate = .ok ())
    (standard : ∀ g, c.At g → g.isStandard) (p : Partition) :
    ∃ out report, c.link p = .ok (out, report) ∧
      out.lower.map Program.outline = c.lower.map Program.outline := by
  obtain ⟨fits, -⟩ := checkCircuit_eq_ok.mp valid
  refine ⟨_, _, link_eq fits p, outline_lower (lowerFrom_mapIdx fun i column found source => ?_)⟩
  have inside := List.mem_of_getElem? found
  refine lowerColumn_linked (fits column inside) (fun s h => ?_) (fun q placed => ?_) source _
  · have same := (Column.mem_sites.mp h).1
    exact linked_sites c.wires (mem_sites.mpr ⟨column, by rw [same, found], by rw [same]; exact h⟩)
  · exact standard q.2 ⟨column, inside, Column.mem_of_placed placed⟩

/-- A CNOT and a controlled Z between two blocks, both of which are sites. -/
theorem Circuit.lower_link_two_sites :
    let gate (id : String) : Option Gate := Catalog.find? id
    let c : Circuit := ⟨2, [[gate "CNOT", none], [gate "Z", gate "•"]]⟩
    (c.sites ⟨[0, 1], 2⟩).length = 2 ∧ ∃ out report, c.link ⟨[0, 1], 2⟩ = .ok (out, report) ∧
      out.lower.map Program.outline = c.lower.map Program.outline := by
  intro gate c
  have all : Grid.all Gate.isStandard c := by decide +kernel
  exact ⟨by decide +kernel,
    lower_link (by decide +kernel) (fun g h => Grid.all_eq_true.mp all g (.here h)) _⟩

end CircuitGrid
