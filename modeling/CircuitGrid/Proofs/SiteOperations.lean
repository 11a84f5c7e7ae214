import CircuitGrid.Proofs.Description.TextRoundTrip
import CircuitGrid.Proofs.LinkedLowering
import CircuitGrid.Proofs.Lowerable

/-!
# The operations of sites

The cells of a site are lowered to one operation, between its two wires. Nothing else depends on
them: when they are taken out, only that operation is missing, and the placeholder brings another
one in its place. The two are the same for a tall gate. Under a control a gate is recognised by what
it is without one, but it is lowered to its controlled operation, and the two may have nothing to do
with each other in a gate that is defined by its operations.

* `Surroundings`: the output columns around those of a site;
* `Column.lowerColumn_around`: lowering cells in the middle of a column without controls;
* `Circuit.LowersSite`: the operation of a site in the program;
* **`Circuit.exists_lowersSite`**: every site has one.
-/

namespace CircuitGrid

/-- The output columns around those of a site: of the columns before its own, of its own column
above and below it, and of the columns behind. -/
structure Surroundings where
  earlier : List Slice
  above : List Slice
  below : List Slice
  later : List Slice

namespace Surroundings

/-- The output columns of the column of the site, with the given ones for the site itself. -/
def own (u : Surroundings) (slices : List Slice) : List Slice := u.above ++ slices ++ u.below

/-- The program with the given output columns for the site. -/
def program (u : Surroundings) (wires : Nat) (slices : List Slice) : Program :=
  .ofSlices wires (u.earlier ++ u.own slices ++ u.later)

end Surroundings

/-- The operation between the wires of a site that it is recognised for. -/
def Site.operation (s : Site) : Operation := { op := s.kind.op, wires := [s.source, s.target] }

/-- The operation of its placeholder. -/
def Site.linkedOperation (s : Site) : Operation :=
  { s.operation with label := some (s.kind.title s.source s.target) }

/-! ## Cells in the middle of a column -/

section

variable {source offset row : Nat} {column : Column Gate} {g : Gate}

theorem Column.exists_around (inside : (row, g) ∈ placed column) :
    ∃ above below, placed column = above ++ [(row, g)] ++ below ∧
      (∀ column' : Column Gate,
        (∀ r h, (r, h) ∈ placed column' ↔ r ≠ row ∧ (r, h) ∈ placed column) →
          placed column' = above ++ [] ++ below) ∧
      ∀ (column' : Column Gate) (g' : Gate),
        (∀ r h, (r, h) ∈ placed column' ↔
          (r = row ∧ h = g') ∨ (r ≠ row ∧ (r, h) ∈ placed column)) →
            placed column' = above ++ [(row, g')] ++ below := by
  obtain ⟨above, below, parts⟩ := List.append_of_mem inside
  have rising := pairwise_placed column
  rw [parts, List.pairwise_append, List.pairwise_cons] at rising
  obtain ⟨risingAbove, ⟨under, risingBelow⟩, apart⟩ := rising
  have others (r : Nat) (h : Gate) :
      (r, h) ∈ above ++ below ↔ r ≠ row ∧ (r, h) ∈ placed column := by
    rw [parts, List.mem_append, List.mem_append, List.mem_cons]
    constructor
    · rintro (inside | inside)
      · exact ⟨Nat.ne_of_lt (apart _ inside (row, g) List.mem_cons_self), .inl inside⟩
      · exact ⟨Nat.ne_of_gt (under _ inside), .inr (.inr inside)⟩
    · rintro ⟨elsewhere, inside | same | inside⟩
      · exact .inl inside
      · cases same
        exact absurd rfl elsewhere
      · exact .inr inside
  refine ⟨above, below, by rw [parts, List.append_assoc, List.singleton_append], ?_, ?_⟩
  · intro column' mem
    rw [List.append_nil]
    refine placed_eq (List.pairwise_append.mpr ⟨risingAbove, risingBelow, ?_⟩) fun r h => ?_
    · exact fun p hp q hq => apart p hp q (List.mem_cons_of_mem _ hq)
    · rw [others, mem]
  · intro column' g' mem
    rw [List.append_assoc, List.singleton_append]
    refine placed_eq (List.pairwise_append.mpr
      ⟨risingAbove, List.pairwise_cons.mpr ⟨under, risingBelow⟩, ?_⟩) fun r h => ?_
    · rintro p hp q hq
      obtain rfl | hq := List.mem_cons.mp hq
      · exact apart p hp (row, g) List.mem_cons_self
      · exact apart p hp q (List.mem_cons_of_mem _ hq)
    · rw [mem, ← others, List.mem_append, List.mem_append, List.mem_cons, Prod.mk.injEq]
      tauto

/-- A column without controls is lowered to what the payloads in the middle of it are lowered to,
and to what does not depend on them. -/
theorem Column.lowerColumn_around {above middle below : List (Nat × Gate)}
    (parts : placed column = above ++ middle ++ below)
    (free : ∀ q ∈ above ++ below, ¬ q.2.isControl) (isPayload : ∀ q ∈ middle, q.2.isPayload) :
    lowerColumn source offset column = (do
      let frame ← Frame.checked source []
        (((above ++ below).filter (·.2.isSwapHalf)).map fun q => q.1 + offset)
      let before ← (above.filter (·.2.isPayload)).mapM fun (row, gate) =>
        lowerGate source offset row gate
      let own ← middle.mapM fun (row, gate) => lowerGate source offset row gate
      let after ← (below.filter (·.2.isPayload)).mapM fun (row, gate) =>
        lowerGate source offset row gate
      return frame.swap ++ before.flatten ++ own.flatten ++ after.flatten) := by
  have noSwap : middle.filter (·.2.isSwapHalf) = [] := by
    refine List.filter_eq_nil_iff.mpr fun q h => ?_
    have payload := isPayload q h
    simp only [Gate.isPayload, Bool.and_eq_true, Bool.not_eq_true'] at payload
    simp [payload.1]
  have free : ∀ q ∈ placed column, ¬ q.2.isControl := by
    intro q h control
    rw [parts, List.append_assoc, List.mem_append, List.mem_append] at h
    obtain h | h | h := h
    · exact free q (List.mem_append_left _ h) control
    · have payload := isPayload q h
      simp [Gate.isPayload, Gate.hasNoEffect, control] at payload
    · exact free q (List.mem_append_right _ h) control
  have payloads : payload column =
      above.filter (·.2.isPayload) ++ (middle ++ below.filter (·.2.isPayload)) := by
    rw [payload, parts, List.filter_append, List.filter_append,
      List.filter_eq_self.mpr isPayload, List.append_assoc]
  have swaps : swapWires offset column =
      ((above ++ below).filter (·.2.isSwapHalf)).map fun q => q.1 + offset := by
    rw [swapWires, parts, List.filter_append, List.filter_append, noSwap, List.append_nil,
      List.filter_append]
  rw [lowerColumn_of_free free, swaps, payloads]
  simp [List.mapM_append]

end

/-! ## The operation of a site in its column -/

/-- The slices of a column around those of a site, and the operation of the site. -/
structure Column.LowersSite (index : Nat) (column : Column Gate) (s : Site)
    (above below : List Slice) (o : Operation) : Prop where
  whole : lowerColumn index 0 column = .ok (above ++ [[o]] ++ below)
  wires : o.wires = [s.source, s.target]
  label : o.label = none
  cleared : lowerColumn index 0 (Circuit.clearRows s column) = .ok (above ++ [] ++ below)
  linked : ∀ link, lowerColumn index 0 (putLink s link column) =
    .ok (above ++ [[s.linkedOperation]] ++ below)
  exact : o = s.operation ↔ ∀ g e, (s.target, g) ∈ placed column → g.exports = some e →
    e.controlled = some s.kind.op ∧ e.controlledParams = []

section

variable {index wires : Nat} {column : Column Gate} {s : Site} {p : Partition} {g : Gate}
  {slices : List Slice}

theorem lowerGate_placeholder {link : Link} {source row : Nat} :
    lowerGate source 0 row (s.placeholder link) = .ok [[s.linkedOperation]] :=
  lowerGate_of_nonLocal (g := s.placeholder link) rfl

/-- A tall gate that is lowered to what it is known for is lowered to the operation of its site. -/
theorem Column.lowersSite_of_tall (apart : Apart wires column) (isSite : s ∈ sites p index column)
    (tall : IsTall column s g) (exports : g.exports = some ⟨s.kind.op, none, [], []⟩)
    (lowered : lowerColumn index 0 column = .ok slices) :
    ∃ above below, LowersSite index column s above below s.operation := by
  obtain ⟨role, height, -⟩ := Gate.tallEntangler?_eq_some.mp tall.kind
  have owns := apart.owns isSite
  have top : s.top = s.source := by
    rw [Site.top, tall.target]
    omega
  -- The tall gate covers both rows of the site, so that nothing else stands in the lower one.
  have empty (h : Gate) : (s.target, h) ∉ placed column := by
    intro inside
    have covers : s.target ∈ g.rowsAt s.source := by simp [tall.rowsAt]
    have same := apart.unique tall.placed inside covers (apart.own_row _ _ inside)
    exact owns.ne (congrArg (·.1) same)
  have away {r : Nat} {h : Gate} : r ∉ s.rows ∧ (r, h) ∈ placed column ↔
      r ≠ s.source ∧ (r, h) ∈ placed column := by
    rw [owns.rows_eq, List.mem_pair, not_or, and_assoc]
    refine and_congr_right fun _ => and_iff_right_of_imp ?_
    rintro inside rfl
    exact empty h inside
  obtain ⟨above, below, whole, cleared, linked⟩ := exists_around tall.placed
  have free : ∀ q ∈ above ++ below, ¬ q.2.isControl := by
    intro q h
    refine tall.free q ?_
    rw [whole, List.mem_append, List.mem_append]
    exact (List.mem_append.mp h).imp_left .inl
  have isPayload : g.isPayload := by
    simp [Gate.isPayload, Gate.isSwapHalf, role, tall.acts]
  have own : lowerGate index 0 s.source g = .ok [[s.operation]] := by
    have arity : s.kind.op.arity = 2 := by cases s.kind <;> rfl
    rw [lowerGate_of_exports (by simp [role]) exports, height, if_pos arity, Site.operation,
      tall.target]
    rfl
  rw [lowerColumn_around whole free (by simpa using isPayload)] at lowered
  simp only [Except.bind_eq_ok, pure, Except.pure, Except.ok.injEq] at lowered
  obtain ⟨frame, framed, before, first, middle, -, after, last, -⟩ := lowered
  have around {column' : Column Gate} {cells : List (Nat × Gate)} (parts : List (List Slice))
      (same : placed column' = above ++ cells ++ below) (payload : ∀ q ∈ cells, q.2.isPayload)
      (each : cells.mapM (fun (row, gate) => lowerGate index 0 row gate) = .ok parts) :
      lowerColumn index 0 column' =
        .ok ((frame.swap ++ before.flatten) ++ parts.flatten ++ after.flatten) := by
    rw [lowerColumn_around same free payload, framed, Except.ok_bind, first, Except.ok_bind, each,
      Except.ok_bind, last]
    rfl
  refine ⟨frame.swap ++ before.flatten, after.flatten, ?_, rfl, rfl, ?_, fun link => ?_, ?_⟩
  · exact around [[[s.operation]]] whole (by simpa using isPayload) (by simp [own])
  · exact around [] (cleared _ fun r h => (Circuit.mem_clearRows owns.rows_eq).trans away)
      (by simp) rfl
  · refine around [[[s.linkedOperation]]] (linked _ (s.placeholder link) fun r h => ?_) ?_
      (by simp [lowerGate_placeholder])
    · rw [mem_putLink owns, top, away]
    · rintro q h
      rw [List.mem_singleton.mp h]
      rfl
  · exact iff_of_true rfl fun g e inside => absurd inside (empty g)

/-- A gate under a control is lowered to its controlled operation, which need not be the one that it
is recognised for. -/
theorem Column.lowersSite_of_controlled {control payload : Gate} (apart : Apart wires column)
    (isSite : s ∈ sites p index column) (under : IsControlled column s control payload)
    (halves : ∀ q ∈ placed column, q.2.isSwapHalf → ¬ q.2.hasNoEffect)
    (lowered : lowerColumn index 0 column = .ok slices) :
    ∃ o, LowersSite index column s [] [] o := by
  have owns := apart.owns isSite
  have whole := lowered
  rw [lowerColumn_of_controlled under halves] at lowered
  simp only [Except.bind_eq_ok, pure, Except.pure, Except.ok.injEq] at lowered
  obtain ⟨slice, own, rfl⟩ := lowered
  have height : payload.height = 1 := by
    obtain ⟨-, plain⟩ | ⟨-, plain⟩ := Gate.controlledEntangler?_eq_some under.kind <;>
      exact (Gate.isPlain_iff.mp plain).2.1
  obtain ⟨flat, e, op, exports, known, arity⟩ := underControl_ok_iff.mp ⟨slice, own⟩
  rw [underControl_of_controlled flat exports known arity, height, Except.ok.injEq] at own
  subst own
  have idle {row : Nat} {h : Gate} (outside : row ∉ s.rows) (inside : (row, h) ∈ placed column) :
      h.Idle := by
    rw [owns.rows_eq, List.mem_pair, not_or] at outside
    exact under.idle halves inside outside.1 outside.2
  refine ⟨_, whole, rfl, rfl, ?_, fun link => ?_, ?_⟩
  · refine lowerColumn_of_idle fun q h => ?_
    obtain ⟨outside, inside⟩ := (Circuit.mem_clearRows owns.rows_eq).mp h
    exact idle outside inside
  · have here : (s.top, s.placeholder link) ∈ placed (putLink s link column) :=
      (mem_putLink owns).mpr (.inl ⟨rfl, rfl⟩)
    refine (lowerColumn_of_single here rfl fun q h => ?_).trans lowerGate_placeholder
    obtain ⟨row, same⟩ | ⟨outside, inside⟩ := (mem_putLink owns).mp h
    · exact .inl (Prod.ext row same)
    · exact .inr (idle outside inside)
  · constructor
    · intro same g e' inside exports'
      rw [placed_unique inside under.placed_payload.1, exports, Option.some.injEq] at exports'
      simp only [Site.operation, Operation.mk.injEq] at same
      rw [← exports', known, same.1]
      exact ⟨rfl, same.2.2.1⟩
    · intro all
      obtain ⟨same, none⟩ := all payload e under.placed_payload.1 exports
      rw [known, Option.some.injEq] at same
      rw [same, none]
      rfl

end

/-! ## The operation of a site in the program -/

namespace Circuit

variable {c : Circuit} {g : Gate}

theorem lower_around {program : Program} {i : Nat} {column : Column Gate}
    (found : c.columns[i]? = some column) (lowered : c.lower = .ok program) :
    ∃ earlier slices later, lowerColumn i 0 column = .ok slices ∧
      program = .ofSlices c.wires (earlier ++ slices ++ later) ∧
      ∀ (f : Column Gate → Column Gate) (slices' : List Slice),
        lowerColumn i 0 (f column) = .ok slices' →
          lower { c with columns := c.columns.modify i f } =
            .ok (.ofSlices c.wires (earlier ++ slices' ++ later)) := by
  obtain ⟨lt, here⟩ := List.getElem?_eq_some_iff.mp found
  obtain ⟨all, sliced, rfl⟩ := lower_eq_ok.mp lowered
  rw [Circuit.slices, Grid.columns_eq found, lowerFrom_around lt] at sliced
  simp only [Except.bind_eq_ok, pure, Except.pure, Except.ok.injEq] at sliced
  obtain ⟨earlier, before, slices, own, later, after, rfl⟩ := sliced
  refine ⟨earlier, slices, later, own, by rw [List.append_assoc], fun f slices' new => ?_⟩
  rw [lower_eq, Circuit.slices, List.modify_eq_take_cons_drop lt, here, lowerFrom_around lt, before,
    Except.ok_bind, new, Except.ok_bind, after, List.append_assoc]
  rfl

theorem Accepted.acts_of_isSwapHalf (accepted : c.Accepted) (held : c.Holds g)
    (half : g.isSwapHalf) : ¬ g.hasNoEffect := by
  obtain known | definable := accepted.gate held
  · simpa [half] using Catalog.passes known (fun g => !g.isSwapHalf || !g.hasNoEffect) rfl
  · cases definable <;> cases half

theorem Accepted.exports_of_entangler (accepted : c.Accepted) (held : c.Holds g) {kind : Entangler}
    (is : g.entangler = some kind) : g.exports = some ⟨kind.op, none, [], []⟩ := by
  obtain known | definable := accepted.gate held
  · have passes := Catalog.passes known (fun g => g.entangler.all fun kind =>
      some ⟨kind.op, none, [], []⟩ == g.exports) rfl
    rw [is] at passes
    exact Export.eq_of_beq passes
  · cases definable <;> cases is

/-- The operation of a site in the program of a circuit. -/
structure LowersSite (c : Circuit) (s : Site) (u : Surroundings) (o : Operation) : Prop where
  whole : c.lower = .ok (u.program c.wires [[o]])
  /-- The operation comes from the column of the site. -/
  column : lowerColumn s.column 0 (c.column s.column) = .ok (u.own [[o]])
  wires : o.wires = [s.source, s.target]
  label : o.label = none
  /-- Without the cells of the site it is missing. -/
  cleared : (c.clearSite s).lower = .ok (u.program c.wires [])
  /-- The placeholder brings its own in its place. -/
  linked : ∀ link, ∃ out, c.replaceSite s link = .ok out ∧
    out.lower = .ok (u.program c.wires [[s.linkedOperation]])
  /-- Under a control it is what the payload asks for. No gate stands in the lower row of a tall
  gate. -/
  exact : o = s.operation ↔ ∀ g e, c.cell? s.column s.target = some g → g.exports = some e →
    e.controlled = some s.kind.op ∧ e.controlledParams = []

/-- **Every site is lowered to one operation, between its wires.** A circuit is read from a text
and lowered, and a gate in it lies between two blocks of a partition. Its cells give one operation.
When they are taken out, only that is missing; when the placeholder is put in, its operation stands
there. The two are the same but for the label exactly if the controlled operation of the gate under a
control is the one that the site is recognised for, without angles. -/
theorem exists_lowersSite {text : String} (read : ofText text = .ok c) {p : Partition} {s : Site}
    (isSite : s ∈ c.sites p) {program : Program} (lowered : c.lower = .ok program) :
    ∃ u o, c.LowersSite s u o := by
  have accepted := accepted_of_ofText read
  obtain ⟨column, found, isSite⟩ := mem_sites.mp isSite
  have isColumn := List.mem_of_getElem? found
  have apart : Column.Apart c.wires column := by
    obtain ⟨valid, -, -, -⟩ := accepted
    exact ((checkCircuit_eq_ok.mp valid).1 column isColumn).apart
  have owns := apart.owns isSite
  have held {row : Nat} {g : Gate} (inside : (row, g) ∈ Column.placed column) : c.Holds g :=
    .here ⟨column, isColumn, Column.mem_of_placed inside⟩
  have here : c.column s.column = column := by rw [Grid.column, found, Option.getD_some]
  obtain ⟨earlier, slices, later, own, rfl, around⟩ := lower_around found lowered
  have site : ∃ above below o, Column.LowersSite s.column column s above below o := by
    obtain ⟨-, -, -, ⟨g, tall⟩ | ⟨control, payload, under⟩⟩ := Column.mem_sites.mp isSite
    · obtain ⟨-, -, known⟩ := Gate.tallEntangler?_eq_some.mp tall.kind
      have exports := accepted.exports_of_entangler (held tall.placed) known
      obtain ⟨above, below, site⟩ := Column.lowersSite_of_tall apart isSite tall exports own
      exact ⟨above, below, _, site⟩
    · obtain ⟨o, site⟩ := Column.lowersSite_of_controlled apart isSite under
        (fun q h => accepted.acts_of_isSwapHalf (held h)) own
      exact ⟨[], [], o, site⟩
  obtain ⟨above, below, o, site⟩ := site
  refine ⟨⟨earlier, above, below, later⟩, o, ?_, ?_, site.wires, site.label, ?_, fun link => ?_, ?_⟩
  · rw [site.whole, Except.ok.injEq] at own
    rw [lowered, ← own]
    rfl
  · rw [here]
    exact site.whole
  · rw [clearSite_eq owns.rows_eq]
    exact around _ _ site.cleared
  · exact ⟨_, replaceSite_eq found apart.length_eq owns, around _ _ (site.linked link)⟩
  · refine site.exact.trans (forall₂_congr fun g e => ?_)
    rw [cell?_eq_some]
    simp [found]

/-- A CNOT between two swap halves and a controlled Z, both between two blocks, have the operations
that they are recognised for. -/
theorem exists_lowersSite_built_in :
    let text := "\x7b\"cols\":[[\"Swap\",\"CNOT\",1,\"Swap\"],[\"•\",1,\"Z\"]]\x7d"
    ∃ c : Circuit, ofText text = .ok c ∧ (c.sites ⟨[0, 0, 1, 1], 2⟩).length = 2 ∧
      ∀ s ∈ c.sites ⟨[0, 0, 1, 1], 2⟩, ∃ u, c.LowersSite s u s.operation := by
  intro text
  have checked : (ofText text).toOption.any (fun c : Circuit => c.lower.toOption.isSome &&
      decide ((c.sites ⟨[0, 0, 1, 1], 2⟩).length = 2) && (c.sites ⟨[0, 0, 1, 1], 2⟩).all fun s =>
        (c.cell? s.column s.target).all fun g => g.exports.all fun e =>
          decide (e.controlled = some s.kind.op) && e.controlledParams.isEmpty) = true := by
    rw [ofText_spelled text rfl]
    decide +kernel
  obtain ⟨c, read, checked⟩ := (Option.any_eq_true _ _).mp checked
  simp only [Bool.and_eq_true, decide_eq_true_eq, Option.isSome_iff_exists,
    Except.toOption_eq_some, List.all_eq_true, Option.all_eq_true, List.isEmpty_iff] at read checked
  obtain ⟨⟨⟨program, lowered⟩, two⟩, standard⟩ := checked
  refine ⟨c, read, two, fun s isSite => ?_⟩
  obtain ⟨u, o, site⟩ := exists_lowersSite read isSite lowered
  have same := site.exact.mpr fun g e found exports => standard s isSite g found e exports
  exact ⟨u, same ▸ site⟩

/-- **A site that is lowered to another operation**: a gate defined by the operation X, and by a
controlled Y under a control. -/
theorem not_exists_operation_of_site :
    ¬ ∀ (text : String) (c : Circuit) (p : Partition) (s : Site) (program : Program),
      ofText text = .ok c → s ∈ c.sites p → c.lower = .ok program →
        ∃ i ∈ program.instructions, i.toOperation = s.operation := by
  intro all
  let text := "\x7b\"cols\":[[\"•\",\"P\"]],\"gates\":[" ++
    "\x7b\"id\":\"P\",\"export\":\x7b\"uncontrolled\":\"x\",\"controlled\":\"cy\"\x7d\x7d]\x7d"
  have checked : (ofText text).toOption.any (fun c : Circuit =>
      c.lower.toOption.any fun program => (c.sites ⟨[0, 1], 2⟩).any fun s =>
        program.instructions.all fun i => i.op != s.kind.op) = true := by
    rw [ofText_spelled text (spelled_append rfl rfl)]
    decide +kernel
  obtain ⟨c, read, checked⟩ := (Option.any_eq_true _ _).mp checked
  obtain ⟨program, lowered, checked⟩ := (Option.any_eq_true _ _).mp checked
  obtain ⟨s, isSite, other⟩ := List.any_eq_true.mp checked
  rw [Except.toOption_eq_some] at read lowered
  obtain ⟨i, isInstruction, same⟩ := all text c ⟨[0, 1], 2⟩ s program read isSite lowered
  have differs := List.all_eq_true.mp other i isInstruction
  rw [show i.op = s.kind.op from congrArg Operation.op same] at differs
  simp at differs

end Circuit

end CircuitGrid
