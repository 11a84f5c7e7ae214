import CircuitGrid.Proofs.Description.TextRoundTrip
import CircuitGrid.Proofs.Emission
import CircuitGrid.Proofs.Redistribution

/-!
# Gates between blocks in distributed programs

Distribution looks for gates between two blocks in the columns of a circuit, and not in the circuits
nested there. Lowering puts nested circuits in their place. So a CNOT or CZ of a nested circuit that
comes to lie between two blocks is lowered as it is, and every other one to a placeholder, whose
label it carries.

* `Operation.Marked`: what crosses between blocks carries the label of a placeholder;
* `Circuit.InnerLayer`: the columns of nested circuits, and `Circuit.innerLayer_linked`: linking
  keeps them;
* `Circuit.Inlined.exists_inner_of_unmarked`, `Circuit.Inlined.exists_unmarked_of_inner`: what
  crosses between blocks without a label are the tall gates of nested circuits;
* **`Circuit.marked_lower_distribute_iff`**: when there are none.
-/

namespace CircuitGrid

/-- A CNOT or CZ between two blocks carries the label of a placeholder for it. -/
def Operation.Marked (p : Partition) (o : Operation) : Prop :=
  ∀ (kind : Entangler) (a b : Nat), o.op = kind.op → o.wires = [a, b] → p.crossing a b ≠ none →
    o.label = some (kind.title a b)

/-! ## Tall gates -/

theorem Entangler.op_injective : Function.Injective Entangler.op := by
  intro kind kind' same
  cases kind <;> cases kind' <;> first | rfl | cases same

namespace Gate

variable {g : Gate} {kind : Entangler}

theorem Same.tallEntangler?_eq {h : Gate} (same : g.Same h) :
    g.tallEntangler? = h.tallEntangler? := by
  unfold tallEntangler?
  rw [same.height, same.entangler]
  have role := same.role
  generalize g.role = r, h.role = s at role
  cases role <;> rfl

theorem tallEntangler?_of_exports (builtIn : isBuiltIn g) {e : Export}
    (exports : g.exports = some e) (op : e.uncontrolled = kind.op) : g.tallEntangler? = some kind := by
  obtain ⟨entry, same, passes⟩ := entry_passes builtIn (fun entry => entry.exports.all fun e =>
    [Entangler.cx, .cz].all fun kind =>
      e.uncontrolled != kind.op || entry.tallEntangler? == some kind) rfl
  have equal := same.exports
  rw [exports] at equal
  cases found : entry.exports with
  | none =>
    rw [found] at equal
    cases equal
  | some e' =>
    rw [found] at equal passes
    rw [Option.some_beq_some, Export.beq_iff] at equal
    have all := List.all_eq_true.mp passes kind (by cases kind <;> decide)
    rw [← same.tallEntangler?_eq]
    simpa [equal.1, op] using all

theorem isPayload_of_tall (builtIn : isBuiltIn g) (tall : g.tallEntangler? = some kind) :
    g.isPayload := by
  obtain ⟨entry, same, passes⟩ := entry_passes builtIn (fun entry =>
    entry.tallEntangler?.isNone || !entry.inert) rfl
  rw [same.tallEntangler?_eq, tall, same.inert] at passes
  obtain ⟨role, -, -⟩ := tallEntangler?_eq_some.mp tall
  simpa [isPayload, hasNoEffect, isSwapHalf, isControl, role] using passes

/-- The gate is no control, and built in or a nested circuit without an export. -/
def isSimple (g : Gate) : Bool :=
  !g.isControl && (isBuiltIn g || (g.body?.isSome && g.exports.isNone))

theorem isSimple_iff : g.isSimple ↔
    ¬ g.isControl ∧ (isBuiltIn g ∨ g.body?.isSome ∧ g.exports = none) := by
  simp [isSimple]

theorem role_of_isSimple (simple : g.isSimple) (payload : Placeholder) :
    g.role ≠ .nonLocal payload := by
  obtain ⟨-, builtIn | ⟨nested, -⟩⟩ := isSimple_iff.mp simple
  · exact (role_of_isBuiltIn builtIn).2 payload
  · intro role
    simp [body?, role] at nested

/-- A simple gate that is lowered to a CNOT or CZ is a tall gate, and it is lowered to just that. -/
theorem operation_of_exports (simple : g.isSimple) {e : Export} (exports : g.exports = some e)
    (op : e.uncontrolled = kind.op) (row : Nat) : g.tallEntangler? = some kind ∧
      (⟨e.uncontrolled, List.range' row g.height, e.params, none⟩ : Operation) =
        { op := kind.op, wires := [row, row + 1] } := by
  obtain ⟨-, builtIn | ⟨-, none⟩⟩ := isSimple_iff.mp simple
  · have tall := tallEntangler?_of_exports builtIn exports op
    obtain ⟨-, height, known⟩ := tallEntangler?_eq_some.mp tall
    have standard := exports_of_entangler builtIn known
    rw [exports, Option.some.injEq] at standard
    rw [standard, height]
    exact ⟨tall, rfl⟩
  · rw [exports] at none
    cases none

theorem isBuiltIn_of_tall (simple : g.isSimple) (tall : g.tallEntangler? = some kind) :
    isBuiltIn g := by
  obtain ⟨-, builtIn | ⟨nested, -⟩⟩ := isSimple_iff.mp simple
  · exact builtIn
  · obtain ⟨role, -, -⟩ := tallEntangler?_eq_some.mp tall
    simp [body?, role] at nested

end Gate

/-- The CNOTs and CZs of a column without controls come from placeholders and from payloads that
are lowered to them. -/
theorem Column.Emits.cases_of_free {first : Nat} {column : Column Gate} {o : Operation}
    (emits : Column.Emits first column o) (free : ∀ q ∈ placed column, ¬ q.2.isControl)
    {kind : Entangler} (op : o.op = kind.op) :
    (∃ row g p, (row, g) ∈ payload column ∧ g.role = .nonLocal p ∧
      o = { op := p.kind.op, wires := [p.source + first, p.target + first],
            label := some g.title }) ∨
    ∃ row g e, (row, g) ∈ payload column ∧ g.exports = some e ∧ e.uncontrolled = kind.op ∧
      o = { op := e.uncontrolled, wires := List.range' (row + first) g.height,
            params := e.params } := by
  have none : conditions first column = [] := conditions_eq_nil free
  cases emits with
  | placeholder inside role => exact .inl ⟨_, _, _, inside, role, rfl⟩
  | free inside role exports arity => exact .inr ⟨_, _, _, inside, exports, op, rfl⟩
  | flip condition | controlled _ _ _ _ condition | controlledSwap _ condition =>
    rw [none] at condition
    cases condition
  | toffoli _ _ both =>
    rw [none] at both
    cases both
  | swap => cases kind <;> cases op

/-! ## The columns of nested circuits -/

namespace Circuit

variable {c : Circuit} {p : Partition} {first row : Nat} {column : Column Gate} {g : Gate}

/-- A column of a circuit nested in the circuit, and the wire of its first slot. -/
def InnerLayer (c : Circuit) (first : Nat) (inside : Column Gate) : Prop :=
  ∃ i row g body, c.cell? i row = some g ∧ g.body? = some body ∧ body.Layer row first inside

theorem layer_iff : c.Layer 0 first column ↔
    (first = 0 ∧ column ∈ c.columns) ∨ c.InnerLayer first column := by
  constructor
  · rintro (isColumn | ⟨isColumn, placed, nested, layer⟩)
    · exact .inl ⟨rfl, isColumn⟩
    · obtain ⟨i, found⟩ := List.mem_iff_getElem?.mp isColumn
      exact .inr ⟨i, _, _, _, cell?_eq_some.mpr ⟨_, found, placed⟩, nested, layer⟩
  · rintro (⟨rfl, isColumn⟩ | ⟨i, row, g, body, found, nested, layer⟩)
    · exact .outer isColumn
    · obtain ⟨outer, isColumn, placed⟩ := cell?_eq_some.mp found
      exact .inner (List.mem_of_getElem? isColumn) placed nested layer

/-- **Linking keeps the columns of nested circuits.** -/
theorem innerLayer_linked (apart : ∀ column ∈ c.columns, Column.Apart c.wires column) :
    (c.linked p).InnerLayer first column ↔ c.InnerLayer first column :=
  exists_congr fun _ => exists_congr fun _ => exists_congr fun _ => exists_congr fun _ => by
    constructor <;> rintro ⟨found, nested, layer⟩
    · exact ⟨(cell?_linked_iff_of_body (.of_apart apart) nested).mp found, nested, layer⟩
    · exact ⟨(cell?_linked_iff_of_body (.of_apart apart) nested).mpr found, nested, layer⟩

theorem InnerLayer.holds (layer : c.InnerLayer first column)
    (placed : (row, g) ∈ Column.placed column) : c.Holds g :=
  (layer_iff.mpr (.inr layer)).holds (Column.mem_of_placed placed)

theorem Inlined.linked (inlined : c.Inlined)
    (apart : ∀ column ∈ c.columns, Column.Apart c.wires column) : (c.linked p).Inlined where
  free g held := by
    obtain ⟨s, link, rfl⟩ | before := holds_linked (.of_apart apart) held
    · exact Bool.false_ne_true
    · exact inlined.free g before
  inline g held nested := by
    obtain ⟨s, link, rfl⟩ | before := holds_linked (.of_apart apart) held
    · cases nested
    · exact inlined.inline g before nested

theorem Accepted.inert_of_body (accepted : c.Accepted) (held : c.Holds g)
    (nested : g.body?.isSome) : g.inert = false := by
  obtain known | definable := accepted.gate held
  · rw [Catalog.body?_eq_none known] at nested
    cases nested
  · cases definable <;> rfl

/-- In a circuit of a description whose gates are simple all nested circuits are put in their
place. -/
theorem Accepted.inlined (accepted : c.Accepted) (simple : ∀ g, c.Holds g → g.isSimple) :
    c.Inlined where
  free g held := (Gate.isSimple_iff.mp (simple g held)).1
  inline g held nested := by
    obtain ⟨body, isBody⟩ := Option.isSome_iff_exists.mp nested
    have role := Gate.role_of_body? isBody
    constructor
    · simp [Gate.isPayload, Gate.hasNoEffect, Gate.isSwapHalf, Gate.isControl, role,
        accepted.inert_of_body held nested]
    · obtain ⟨-, builtIn | ⟨-, none⟩⟩ := Gate.isSimple_iff.mp (simple g held)
      · exact absurd role ((Gate.role_of_isBuiltIn builtIn).1 body)
      · exact none

/-! ## What crosses between blocks -/

/-- A gate in a column of the linked circuit is the placeholder of a site, or a gate of the circuit
that is no site. -/
theorem cases_linked_column (apart : ∀ column ∈ c.columns, Column.Apart c.wires column)
    (isColumn : column ∈ (c.linked p).columns) (placed : (row, g) ∈ Column.placed column) :
    (∃ s link, g = Site.placeholder s link) ∨ c.Holds g ∧
      ∀ kind, (∀ q ∈ Column.placed column, ¬ q.2.isControl) → ¬ g.hasNoEffect →
        g.tallEntangler? = some kind → p.crossing row (row + 1) = none := by
  obtain ⟨i, isColumn⟩ := List.mem_iff_getElem?.mp isColumn
  have found : (c.linked p).cell? i row = some g := cell?_eq_some.mpr ⟨column, isColumn, placed⟩
  obtain ⟨s, -, link, -, -, -, rfl⟩ | ⟨-, before⟩ := (cell?_linked (.of_apart apart)).mp found
  · exact .inl ⟨s, link, rfl⟩
  · refine .inr ⟨.here (at_iff.mpr ⟨i, row, before⟩), fun kind free acts tall => ?_⟩
    by_contra crossing
    obtain ⟨pair, crossing⟩ := Option.ne_none_iff_exists'.mp crossing
    -- The gate would be a site of the linked circuit, which has none.
    have isSite : ⟨i, kind, row, row + 1, pair, [row, row + 1]⟩ ∈ (c.linked p).sites p :=
      mem_sites.mpr ⟨column, isColumn, Column.mem_sites.mpr
        ⟨rfl, rfl, crossing, .inl ⟨g, free, placed, acts, tall, rfl⟩⟩⟩
    rw [sites_linked (.of_apart apart)] at isSite
    cases isSite

section

variable {program : Program} (inlined : c.Inlined) (simple : ∀ g, c.Holds g → g.isSimple)
  (apart : ∀ column ∈ c.columns, Column.Apart c.wires column)
  (lowered : (c.linked p).lower = .ok program)

include inlined simple apart lowered

/-- What crosses between blocks without a label comes from a nested circuit. -/
theorem Inlined.exists_inner_of_unmarked {i : Instruction}
    (isInstruction : i ∈ program.instructions) (unmarked : ¬ i.toOperation.Marked p) :
    ∃ first column row g kind, c.InnerLayer first column ∧ (row, g) ∈ Column.placed column ∧
      g.tallEntangler? = some kind ∧ p.crossing (row + first) (row + first + 1) ≠ none ∧
        i.toOperation = { op := kind.op, wires := [row + first, row + first + 1] } := by
  simp only [Operation.Marked, not_forall] at unmarked
  obtain ⟨kind, a, b, op, wires, crossing, label⟩ := unmarked
  obtain ⟨first, column, layer, emits⟩ := exists_emits lowered isInstruction
  have free : ∀ q ∈ Column.placed column, ¬ q.2.isControl := fun q h =>
    (inlined.linked apart).free q.2 (layer.holds (Column.mem_of_placed h))
  obtain ⟨row, g, payload, inside, role, same⟩ | ⟨row, g, e, inside, exports, isOp, same⟩ :=
    emits.cases_of_free free op
  · -- A placeholder stands in a column of the circuit itself and carries its label.
    have placed := List.mem_of_mem_filter inside
    obtain ⟨rfl, isColumn⟩ | inner := layer_iff.mp layer
    · obtain ⟨s, link, rfl⟩ | ⟨held, -⟩ := cases_linked_column apart isColumn placed
      · cases role
        rw [same] at op wires label
        cases Entangler.op_injective op
        cases wires
        exact absurd rfl label
      · exact absurd role (Gate.role_of_isSimple (simple g held) payload)
    · have held := ((innerLayer_linked apart).mp inner).holds placed
      exact absurd role (Gate.role_of_isSimple (simple g held) payload)
  · obtain ⟨placed, isPayload⟩ := List.mem_filter.mp inside
    have acts : ¬ g.hasNoEffect := by simp_all [Gate.isPayload]
    have lowersTo (held : c.Holds g) :=
      Gate.operation_of_exports (simple g held) exports isOp (row + first)
    obtain ⟨rfl, isColumn⟩ | inner := layer_iff.mp layer
    · obtain ⟨s, link, rfl⟩ | ⟨held, together⟩ := cases_linked_column apart isColumn placed
      · cases exports
      · obtain ⟨tall, standard⟩ := lowersTo held
        rw [same, standard] at wires
        cases wires
        exact absurd (together kind free acts tall) crossing
    · have inner := (innerLayer_linked apart).mp inner
      obtain ⟨tall, standard⟩ := lowersTo (inner.holds placed)
      rw [same, standard] at wires
      cases wires
      exact ⟨first, column, row, g, kind, inner, placed, tall, crossing, same.trans standard⟩

/-- A tall gate of a nested circuit that lies between two blocks is lowered without a label. -/
theorem Inlined.exists_unmarked_of_inner {kind : Entangler} (inner : c.InnerLayer first column)
    (placed : (row, g) ∈ Column.placed column) (tall : g.tallEntangler? = some kind)
    (crossing : p.crossing (row + first) (row + first + 1) ≠ none) :
    ∃ i ∈ program.instructions, ¬ i.toOperation.Marked p := by
  have builtIn := Gate.isBuiltIn_of_tall (simple g (inner.holds placed)) tall
  obtain ⟨role, height, known⟩ := Gate.tallEntangler?_eq_some.mp tall
  have layer : (c.linked p).Layer 0 first column :=
    layer_iff.mpr (.inr ((innerLayer_linked apart).mpr inner))
  have payload : (row, g) ∈ Column.payload column :=
    List.mem_filter.mpr ⟨placed, Gate.isPayload_of_tall builtIn tall⟩
  obtain ⟨i, isInstruction, same⟩ := layer.exists_instruction (inlined.linked apart) lowered payload
    (by simp [role]) (Gate.exports_of_entangler builtIn known)
  refine ⟨i, isInstruction, fun marked => ?_⟩
  rw [same, height] at marked
  cases marked kind (row + first) (row + first + 1) rfl rfl crossing

end

/-- **When nothing crosses between blocks without a label.** A circuit is read that holds no
controls and only built-in gates and nested circuits without exports, at every level. When it is
distributed and lowered, every CNOT or CZ between two blocks carries the label of its placeholder
exactly when no CNOT or CZ of a nested circuit comes to lie between two blocks. -/
theorem marked_lower_distribute_iff {text : String} (read : ofText text = .ok c)
    (simple : ∀ g, c.Holds g → g.isSimple) {requested : Nat} {d : Distribution}
    (distributed : c.distribute requested = .ok d) {program : Program}
    (lowered : d.circuit.lower = .ok program) :
    (∀ i ∈ program.instructions, i.toOperation.Marked d.partition) ↔
      ∀ first column, c.InnerLayer first column → ∀ row g, (row, g) ∈ Column.placed column →
        g.tallEntangler?.isSome → d.partition.crossing (row + first) (row + first + 1) = none := by
  obtain ⟨_, -, decoded⟩ := ofText_eq_ok.mp read
  have accepted : c.Accepted := Sheet.accepted_of_decode .nil decoded
  have inlined := accepted.inlined simple
  have apart : ∀ column ∈ c.columns, Column.Apart c.wires column := by
    obtain ⟨valid, -, -, -⟩ := accepted
    exact fun column h => ((checkCircuit_eq_ok.mp valid).1 column h).apart
  obtain ⟨-, linked, -⟩ := distribute_eq_ok.mp distributed
  rw [(Linkable.of_apart apart).link_eq, Except.ok.injEq, Prod.mk.injEq] at linked
  rw [← linked.1] at lowered
  constructor
  · intro marked first column inner row g placed tall
    by_contra crossing
    obtain ⟨kind, tall⟩ := Option.isSome_iff_exists.mp tall
    obtain ⟨i, isInstruction, unmarked⟩ :=
      inlined.exists_unmarked_of_inner simple apart lowered inner placed tall crossing
    exact unmarked (marked i isInstruction)
  · intro together i isInstruction
    by_contra unmarked
    obtain ⟨first, column, row, g, kind, inner, placed, tall, crossing, -⟩ :=
      inlined.exists_inner_of_unmarked simple apart lowered isInstruction unmarked
    exact crossing (together first column inner row g placed (by rw [tall]; rfl))

/-- A CNOT between two blocks, and a nested circuit with a CZ inside one block. -/
theorem marked_lower_distribute_nested :
    let text := "\x7b\"cols\":[[1,\"CNOT\"],[\"n\"],[\"Swap\",\"H\",\"Swap\"]],\"gates\":[" ++
      "\x7b\"id\":\"n\",\"circuit\":\x7b\"cols\":[[\"CZ\"],[\"X\",\"…\"]]\x7d\x7d],\"wires\":4\x7d"
    ∃ c d program, ofText text = .ok c ∧ (∀ g, c.Holds g → g.isSimple) ∧
      c.distribute 2 = .ok d ∧ d.circuit.lower = .ok program ∧
        program.instructions.map (·.label) =
          [some "NL-CNOT(1→2)", none, none, none, none] ∧
        ((∀ i ∈ program.instructions, i.toOperation.Marked d.partition) ↔
          ∀ first column, c.InnerLayer first column → ∀ row g, (row, g) ∈ Column.placed column →
            g.tallEntangler?.isSome →
              d.partition.crossing (row + first) (row + first + 1) = none) := by
  intro text
  have checked : (ofText text).toOption.any (fun c : Circuit => Grid.all Gate.isSimple c &&
      (c.distribute 2).toOption.any fun d => d.circuit.lower.toOption.any fun program =>
        program.instructions.map (·.label) =
          [some "NL-CNOT(1→2)", none, none, none, none]) = true := by
    rw [ofText_spelled text (spelled_append rfl rfl)]
    decide +kernel
  obtain ⟨c, read, checked⟩ := (Option.any_eq_true _ _).mp checked
  obtain ⟨simple, checked⟩ := Bool.and_eq_true_iff.mp checked
  obtain ⟨d, distributed, checked⟩ := (Option.any_eq_true _ _).mp checked
  obtain ⟨program, lowered, labels⟩ := (Option.any_eq_true _ _).mp checked
  rw [Except.toOption_eq_some] at read distributed lowered
  have simple := Grid.all_eq_true.mp simple
  exact ⟨c, d, program, read, simple, distributed, lowered, of_decide_eq_true labels,
    marked_lower_distribute_iff read simple distributed lowered⟩

/-- **A CNOT that distribution misses**: it stands in a nested circuit, between two blocks. -/
theorem not_marked_lower_distribute :
    ¬ ∀ (text : String) (c : Circuit) (requested : Nat) (d : Distribution) (program : Program),
      ofText text = .ok c → (∀ g, c.Holds g → g.isSimple) → c.distribute requested = .ok d →
        d.circuit.lower = .ok program →
          ∀ i ∈ program.instructions, i.toOperation.Marked d.partition := by
  intro all
  let text := "\x7b\"cols\":[[\"N\"]],\"gates\":[" ++
    "\x7b\"id\":\"N\",\"circuit\":\x7b\"cols\":[[\"CNOT\"]]\x7d\x7d]\x7d"
  have checked : (ofText text).toOption.any (fun c : Circuit => Grid.all Gate.isSimple c &&
      (c.distribute 2).toOption.any fun d => d.circuit.lower.toOption.any fun program =>
        decide (d.partition.crossing 0 1 ≠ none) && program.instructions.any fun i =>
          decide (i.op = Entangler.cx.op ∧ i.wires = [0, 1] ∧ i.label = none)) = true := by
    rw [ofText_spelled text (spelled_append rfl rfl)]
    decide +kernel
  obtain ⟨c, read, checked⟩ := (Option.any_eq_true _ _).mp checked
  obtain ⟨simple, checked⟩ := Bool.and_eq_true_iff.mp checked
  obtain ⟨d, distributed, checked⟩ := (Option.any_eq_true _ _).mp checked
  obtain ⟨program, lowered, checked⟩ := (Option.any_eq_true _ _).mp checked
  obtain ⟨crossing, checked⟩ := Bool.and_eq_true_iff.mp checked
  obtain ⟨i, isInstruction, plain⟩ := List.any_eq_true.mp checked
  rw [Except.toOption_eq_some] at read distributed lowered
  obtain ⟨op, wires, label⟩ := of_decide_eq_true plain
  have marked := all text c 2 d program read (Grid.all_eq_true.mp simple) distributed lowered i
    isInstruction .cx 0 1 op wires (of_decide_eq_true crossing)
  rw [label] at marked
  cases marked

end Circuit

end CircuitGrid
