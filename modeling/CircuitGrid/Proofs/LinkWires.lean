import CircuitGrid.Proofs.Crossings
import CircuitGrid.Proofs.LinkEffect
import CircuitGrid.Proofs.Operands

/-!
# The wires of links

Links are made of wires that are set apart for them: a link that is new gets wires of its own, and
gates stay off all of them. Which wires a circuit has set apart is nowhere written down. It is read
off the placeholders, and a placeholder may name any wires, those that are yet to be appended and
those that other placeholders act on.

* `Circuit.LinkedThrough`, `Report.Allocates`: the wires that placeholders name and those that a run
  appends for its links;
* **`Circuit.fresh_distribute_iff`**: when a run appends no wire that was named before;
* `Circuit.Guarded`, `Circuit.Separated`: what an accepted circuit keeps off its link wires, and a
  circuit with no gate on them;
* **`Circuit.separated_of_check`**: when an accepted circuit has none.
-/

namespace CircuitGrid

/-! ## New links -/

def Report.Allocates (r : Report) (wire : Nat) : Prop := ∃ l ∈ r.links, wire ∈ [l.first, l.second]

namespace Circuit

variable {c : Circuit} {p : Partition} {s : Site} {wire : Nat}

def LinkedThrough (c : Circuit) (wire : Nat) : Prop :=
  ∃ i row payload, c.placeholder? i row = some payload ∧ wire ∈ [payload.link.1, payload.link.2]

theorem allocates_linkReport : (c.linkReport p).Allocates wire ↔
    c.wires ≤ wire ∧ wire < (c.linked p).wires := by
  rw [Report.Allocates, linkReport, linksFor, exists_mem_linksFrom, linked, linksFor,
    length_linksFrom]

example : (linkReport ⟨2, [[Catalog.find? "CNOT", none]]⟩ (.clamped 2 2)).links =
    [⟨⟨0, 1⟩, 2, 3⟩] := by decide +kernel

theorem placeholder?_of_mem_rows (apart : ∀ column ∈ c.columns, Column.Apart c.wires column)
    (isSite : s ∈ c.sites p) {row : Nat} (own : row ∈ s.rows) :
    c.placeholder? s.column row = none := by
  rw [placeholder?, Option.bind_eq_none_iff]
  intro g found
  obtain ⟨column, isColumn, isSite⟩ := mem_sites.mp isSite
  obtain ⟨column', isColumn', placed⟩ := cell?_eq_some.mp found
  cases isColumn.symm.trans isColumn'
  exact ((apart column (List.mem_of_getElem? isColumn)).plain_of_mem_rows isSite placed own).1

theorem exists_placeholder_of_allocates
    (apart : ∀ column ∈ c.columns, Column.Apart c.wires column)
    (allocated : (c.linkReport p).Allocates wire) :
    ∃ s ∈ c.sites p, ∃ payload, (c.linked p).placeholder? s.column s.top = some payload ∧
      c.placeholder? s.column s.top = none ∧ wire ∈ [payload.link.1, payload.link.2] := by
  obtain ⟨l, isLink, own⟩ := allocated
  obtain ⟨s, isSite, found⟩ := exists_site isLink
  have here := (cell?_linked (.of_apart apart)).mpr (.inl ⟨s, isSite, l, found, rfl, rfl, rfl⟩)
  have top : s.top ∈ s.rows := by
    rw [mem_rows_iff isSite, Site.top]
    omega
  exact ⟨s, isSite, _, placeholder?_of_cell? here, placeholder?_of_mem_rows apart isSite top, own⟩

/-- **When new links are fresh.** A circuit is read and distributed. The wires of the new links are
all wires that are appended. They are no link wires of the placeholders that were there exactly when
all of those wires were there, too. The placeholders stay, and whenever a link wire of one of them
was not there, a new placeholder is linked through the same wire. -/
theorem fresh_distribute_iff {text : String} (read : ofText text = .ok c) {requested : Nat}
    {d : Distribution} (distributed : c.distribute requested = .ok d) :
    (∀ wire, d.report.Allocates wire ↔ c.wires ≤ wire ∧ wire < d.circuit.wires) ∧
      ((∀ wire, d.report.Allocates wire → ¬ c.LinkedThrough wire) ↔
        ∀ wire, c.LinkedThrough wire → wire < c.wires) ∧
      ∀ i row payload, c.placeholder? i row = some payload →
        d.circuit.placeholder? i row = some payload ∧
          ∀ wire ∈ [payload.link.1, payload.link.2], c.wires ≤ wire →
            ∃ s ∈ d.report.sites, ∃ payload',
              d.circuit.placeholder? s.column s.top = some payload' ∧
                c.placeholder? s.column s.top = none ∧
                  wire ∈ [payload'.link.1, payload'.link.2] := by
  obtain ⟨_, -, decoded⟩ := ofText_eq_ok.mp read
  obtain ⟨valid, -⟩ := Sheet.accepted_of_decode .nil decoded
  have apart := fun column h => ((checkCircuit_eq_ok.mp valid).1 column h).apart
  obtain ⟨-, linked, accepted⟩ := distribute_eq_ok.mp distributed
  rw [(Linkable.of_apart apart).link_eq, Except.ok.injEq, Prod.mk.injEq] at linked
  rw [← linked.1, ← linked.2] at accepted ⊢
  -- The check of the outcome is the first to look at the links of the old placeholders.
  have inside {i row payload} (found : c.placeholder? i row = some payload) :
      ∀ wire ∈ [payload.link.1, payload.link.2], wire < (c.linked d.partition).wires := by
    obtain ⟨g, here, role⟩ := placeholder?_eq_some.mp (placeholder?_linked (.of_apart apart) found)
    obtain ⟨-, -, -, first, second, -⟩ := checkPlaceholder_eq_ok.mp
      (((exists_checkLinks.mp accepted).2 i row g here).placeholder payload role)
    rw [List.forall_mem_cons, List.forall_mem_singleton]
    exact ⟨(isLinkWire_iff.mp first).2, (isLinkWire_iff.mp second).2⟩
  refine ⟨fun wire => allocates_linkReport, ⟨fun fresh wire old => ?_, fun there wire new old => ?_⟩,
    fun i row payload found => ⟨placeholder?_linked (.of_apart apart) found, ?_⟩⟩
  · by_contra beyond
    obtain ⟨i, row, payload, found, own⟩ := old
    refine fresh wire ?_ ⟨i, row, payload, found, own⟩
    exact allocates_linkReport.mpr ⟨Nat.le_of_not_lt beyond, inside found wire own⟩
  · exact absurd (there wire old) (Nat.not_lt.mpr (allocates_linkReport.mp new).1)
  · intro wire own beyond
    have allocated := allocates_linkReport.mpr ⟨beyond, inside found wire own⟩
    exact exists_placeholder_of_allocates apart allocated

/-- A placeholder beside a site, linked through wires that are there. -/
theorem fresh_distribute_beside_placeholder :
    let text := "\x7b\"cols\":[[\"P\"],[\"CNOT\"]],\"gates\":[\x7b\"id\":\"P\",\"nonlocal\":" ++
      "\x7b\"kind\":\"cz\",\"source\":0,\"target\":1,\"link\":[2,3]\x7d\x7d],\"wires\":4\x7d"
    ∃ c d, ofText text = .ok c ∧ c.distribute 2 = .ok d ∧
      d.report.links = [⟨⟨0, 1⟩, 4, 5⟩] ∧ c.LinkedThrough 2 ∧
        ∀ wire, d.report.Allocates wire → ¬ c.LinkedThrough wire := by
  intro text
  have checked : (ofText text).toOption.any (fun c : Circuit =>
      (c.distribute 2).toOption.any fun d => decide (d.report.links = [⟨⟨0, 1⟩, 4, 5⟩]) &&
        decide (c.placeholder? 0 0 = some ⟨.cz, 0, 1, (2, 3)⟩) &&
          c.placements.all fun q => q.2.2.placeholder?.all fun payload =>
            payload.link.1 < c.wires && payload.link.2 < c.wires) = true := by
    rw [ofText_spelled text (spelled_append rfl rfl)]
    decide +kernel
  obtain ⟨c, read, checked⟩ := (Option.any_eq_true _ _).mp checked
  obtain ⟨d, distributed, checked⟩ := (Option.any_eq_true _ _).mp checked
  rw [Except.toOption_eq_some] at read distributed
  simp only [Bool.and_eq_true, decide_eq_true_eq] at checked
  obtain ⟨⟨links, old⟩, there⟩ := checked
  refine ⟨c, d, read, distributed, links, ⟨0, 0, _, old, List.mem_cons_self⟩, ?_⟩
  refine (fresh_distribute_iff read distributed).2.1.mpr fun wire through => ?_
  obtain ⟨i, row, payload, found, own⟩ := through
  have named := placeholder_passes there found
  rw [Bool.and_eq_true, decide_eq_true_eq, decide_eq_true_eq] at named
  rw [List.mem_pair] at own
  omega

/-- **A link that is not fresh**: a placeholder for two blocks names the wires that are yet to be
appended for two other ones. -/
theorem not_fresh_distribute :
    ¬ ∀ (text : String) (c : Circuit) (requested : Nat) (d : Distribution),
      ofText text = .ok c → c.distribute requested = .ok d →
        ∀ wire, d.report.Allocates wire → ¬ c.LinkedThrough wire := by
  intro all
  let text := "\x7b\"cols\":[[\"P\"],[\"CNOT\"]],\"gates\":[\x7b\"id\":\"P\",\"nonlocal\":" ++
    "\x7b\"kind\":\"cz\",\"source\":0,\"target\":2,\"link\":[3,4]\x7d\x7d],\"wires\":3\x7d"
  have checked : (ofText text).toOption.any (fun c : Circuit =>
      (c.distribute 3).toOption.any fun d => decide (d.report.links = [⟨⟨0, 1⟩, 3, 4⟩]) &&
        decide (c.placeholder? 0 0 = some ⟨.cz, 0, 2, (3, 4)⟩)) = true := by
    rw [ofText_spelled text (spelled_append rfl rfl)]
    decide +kernel
  obtain ⟨c, read, checked⟩ := (Option.any_eq_true _ _).mp checked
  obtain ⟨d, distributed, checked⟩ := (Option.any_eq_true _ _).mp checked
  rw [Except.toOption_eq_some] at read distributed
  simp only [Bool.and_eq_true, decide_eq_true_eq] at checked
  obtain ⟨links, old⟩ := checked
  refine all text c 3 d read distributed 3 ?_ ⟨0, 0, _, old, List.mem_cons_self⟩
  rw [Report.Allocates, links]
  exact ⟨_, List.mem_cons_self, List.mem_cons_self⟩

end Circuit

/-! ## Accepted circuits -/

/-- The link wires of a placeholder are two of the given wires, its circuit starting at the wire
`first`. -/
def Placeholder.LinkedIn (links : Nat × Nat) (first : Nat) (p : Placeholder) : Prop :=
  p.link.1 ≠ p.link.2 ∧ isLinkWire links (p.link.1 + first) ∧ isLinkWire links (p.link.2 + first)

namespace Circuit

variable {c : Circuit} {links : Nat × Nat}

/-- What the check finds out about the link wires of a circuit. -/
structure Guarded (c : Circuit) (links : Nat × Nat) : Prop where
  /-- Gates that are no placeholders stay off them. -/
  gates : ∀ i row g, c.cell? i row = some g → g.placeholder? = none →
    ∀ r ∈ g.rowsAt row, ¬ isLinkWire links r
  /-- So do all gates of nested circuits, placeholders or not. -/
  nested : ∀ first column, c.InnerLayer first column →
    ∀ r ∈ Column.occupied column, ¬ isLinkWire links (r + first)
  placeholders : ∀ i row payload, c.placeholder? i row = some payload →
    payload.source ≠ payload.target ∧ payload.LinkedIn links 0

/-- No gate acts on a link wire, at any level of nesting, and all placeholders are linked through
two of them. -/
structure Separated (c : Circuit) (links : Nat × Nat) : Prop where
  off : ∀ first column, c.Layer 0 first column →
    ∀ r ∈ Column.occupied column, ¬ isLinkWire links (r + first)
  linked : ∀ first column, c.Layer 0 first column → ∀ row g payload,
    (row, g) ∈ Column.placed column → g.placeholder? = some payload → payload.LinkedIn links first

theorem InnerLayer.exists_rowsAt {first r : Nat} {column : Column Gate}
    (inner : c.InnerLayer first column) (valid : c.validate = .ok ())
    (covered : r ∈ Column.occupied column) :
    ∃ i row g, c.cell? i row = some g ∧ g.placeholder? = none ∧ r + first ∈ g.rowsAt row := by
  obtain ⟨i, row, g, body, found, nested, layer⟩ := inner
  have role := Gate.role_of_body? nested
  have sound := ((validate_eq_ok.mp valid).2 i row g found).2
  obtain ⟨low, valid⟩ := (checkGate_eq_ok.mp sound).2 body nested
  obtain ⟨wires, fits, above, below⟩ := layer.fits valid
  have := fits.in_range r covered
  refine ⟨i, row, g, found, by simp [Gate.placeholder?, role], ?_⟩
  rw [Gate.rowsAt_of_local (by simp [role]), List.mem_range'_1]
  omega

theorem guarded_of_checkLinks {partition : Option Partition} {report : Option Report}
    (accepted : ∃ counts, c.checkLinks partition report = .ok counts) :
    c.Guarded (c.linkWires partition) := by
  obtain ⟨valid, passes⟩ := exists_checkLinks.mp accepted
  have gates (i row : Nat) (g : Gate) (found : c.cell? i row = some g)
      (other : g.placeholder? = none) : ∀ r ∈ g.rowsAt row,
        ¬ isLinkWire (c.linkWires partition) r :=
    (passes i row g found).other other
  refine ⟨gates, fun first column inner r covered => ?_, fun i row payload found => ?_⟩
  · obtain ⟨i, row, g, found, other, around⟩ := inner.exists_rowsAt valid covered
    exact gates i row g found other _ around
  · obtain ⟨g, found, role⟩ := placeholder?_eq_some.mp found
    obtain ⟨ends, apart, -, first, second, -⟩ :=
      checkPlaceholder_eq_ok.mp ((passes i row g found).placeholder payload role)
    exact ⟨ends, apart, first, second⟩

theorem Separated.ends_lt {partition : Option Partition}
    (separated : c.Separated (c.linkWires partition))
    (apart : ∀ column ∈ c.columns, Column.Apart c.wires column) {i row : Nat}
    {payload : Placeholder} (found : c.placeholder? i row = some payload) :
    payload.source < (c.linkWires partition).1 ∧ payload.target < (c.linkWires partition).1 := by
  obtain ⟨g, found, role⟩ := placeholder?_eq_some.mp found
  obtain ⟨column, isColumn, placed⟩ := cell?_eq_some.mp found
  have isColumn := List.mem_of_getElem? isColumn
  -- The link wires are the last ones of the circuit, so what is not among them comes before.
  have before (r : Nat) (covers : r ∈ g.rowsAt row) : r < (c.linkWires partition).1 := by
    have off := separated.off 0 column (.outer isColumn) r
      (Column.mem_occupied.mpr ⟨row, g, placed, covers⟩)
    have inRange : r < c.wires := (apart column isColumn).in_range row g placed r covers
    rw [isLinkWire_iff, not_and'] at off
    exact Nat.lt_of_not_le (off inRange)
  exact ⟨before _ ((Gate.mem_rowsAt_of_placeholder role).mpr (.inl rfl)),
    before _ ((Gate.mem_rowsAt_of_placeholder role).mpr (.inr rfl))⟩

/-- What the check leaves open: the ends of placeholders, and the links in nested circuits. -/
theorem Guarded.separated (guarded : c.Guarded links)
    (ends : ∀ i row payload, c.placeholder? i row = some payload →
      payload.source < links.1 ∧ payload.target < links.1)
    (inside : ∀ first column, c.InnerLayer first column → ∀ row g payload,
      (row, g) ∈ Column.placed column → g.placeholder? = some payload →
        payload.LinkedIn links first) : c.Separated links := by
  have cell {column : Column Gate} {row : Nat} {g : Gate} (isColumn : column ∈ c.columns)
      (placed : (row, g) ∈ Column.placed column) : ∃ i, c.cell? i row = some g := by
    obtain ⟨i, isColumn⟩ := List.mem_iff_getElem?.mp isColumn
    exact ⟨i, cell?_eq_some.mpr ⟨column, isColumn, placed⟩⟩
  constructor
  · intro first column layer r covered
    obtain ⟨rfl, isColumn⟩ | inner := layer_iff.mp layer
    · obtain ⟨row, g, placed, covers⟩ := Column.mem_occupied.mp covered
      obtain ⟨i, found⟩ := cell isColumn placed
      cases role : g.placeholder? with
      | none => exact guarded.gates i row g found role r covers
      | some payload =>
        have := ends i row payload (placeholder?_eq_some.mpr ⟨g, found, role⟩)
        rw [Gate.mem_rowsAt_of_placeholder role] at covers
        rw [isLinkWire_iff]
        omega
    · exact guarded.nested first column inner r covered
  · intro first column layer row g payload placed role
    obtain ⟨rfl, isColumn⟩ | inner := layer_iff.mp layer
    · obtain ⟨i, found⟩ := cell isColumn placed
      exact (guarded.placeholders i row payload (placeholder?_eq_some.mpr ⟨g, found, role⟩)).2
    · exact inside first column inner row g payload placed role

/-- **When no gate acts on a link wire.** In every circuit that the check accepts, with whatever
partition and report, gates other than placeholders and all gates of nested circuits stay off the
link wires, and placeholders have two ends and are linked through two link wires. Data and links are
apart at all levels exactly when the ends of the placeholders come before the link wires, and the
placeholders of nested circuits are linked through two link wires, too. -/
theorem separated_of_check {s after : State} (accepted : Pass.check.run s = .ok after) :
    let c := s.circuit
    let links := c.linkWires s.properties.partition
    c.Guarded links ∧
      (c.Separated links ↔
        (∀ i row payload, c.placeholder? i row = some payload →
          payload.source < links.1 ∧ payload.target < links.1) ∧
        ∀ first column, c.InnerLayer first column → ∀ row g payload,
          (row, g) ∈ Column.placed column → g.placeholder? = some payload →
            payload.LinkedIn links first) := by
  intro c links
  have checked : ∃ counts, c.checkLinks s.properties.partition s.properties.report = .ok counts := by
    rw [Pass.run, Pass.runIn] at accepted
    split at accepted
    · cases accepted
    · next counts checked => exact ⟨counts, checked⟩
  have guarded : c.Guarded links := guarded_of_checkLinks checked
  have apart := (validate_eq_ok.mp (exists_checkLinks.mp checked).1).1
  refine ⟨guarded, fun separated => ⟨?_, ?_⟩, fun h => guarded.separated h.1 h.2⟩
  · exact fun i row payload found => separated.ends_lt apart found
  · exact fun first column inner => separated.linked first column (layer_iff.mpr (.inr inner))

/-- A placeholder around a nested circuit, without a partition and a report. -/
theorem separated_of_check_nested :
    let gate (id : String) : Option Gate := Catalog.find? id
    let c : Circuit := ⟨6, [[some (.nonLocal "P" ⟨.cz, 3, 0, (5, 4)⟩),
      some (.nested "n" "n" ⟨2, [[gate "•", gate "X"]]⟩), none, none, none, none]]⟩
    (∃ after, Pass.check.run ⟨c, {}⟩ = .ok after) ∧ c.linkWires none = (4, 6) ∧
      c.Guarded (4, 6) ∧ c.Separated (4, 6) := by
  intro gate c
  have wires : c.linkWires none = (4, 6) := by decide +kernel
  have runs : (Pass.check.run ⟨c, {}⟩).toOption.isSome := by decide +kernel
  obtain ⟨after, accepted⟩ := Option.isSome_iff_exists.mp runs
  rw [Except.toOption_eq_some] at accepted
  have whole := separated_of_check accepted
  dsimp only at whole
  rw [wires] at whole
  refine ⟨⟨after, accepted⟩, wires, whole.1, whole.2.mpr ⟨fun i row payload found => ?_, ?_⟩⟩
  · have before : c.placements.all fun q => q.2.2.placeholder?.all fun payload =>
        payload.source < 4 && payload.target < 4 := by
      decide +kernel
    simpa using placeholder_passes before found
  · rintro first column ⟨i, _, _, body, found, nested, layer⟩ row g payload placed role
    have flat : c.placements.all fun q => q.2.2.body?.all (Grid.all (·.placeholder?.isNone)) := by
      decide +kernel
    have inside := List.all_eq_true.mp flat _ (mem_placements.mpr found)
    rw [nested] at inside
    have other := Grid.all_eq_true.mp inside g (layer.holds (Column.mem_of_placed placed))
    rw [role] at other
    cases other

/-- **A placeholder that acts on a link wire** of another one is accepted. -/
theorem not_separated_of_check :
    ¬ ∀ s after : State, Pass.check.run s = .ok after →
      s.circuit.Separated (s.circuit.linkWires s.properties.partition) := by
  intro all
  let c : Circuit := ⟨4, [[some (.nonLocal "P" ⟨.cz, 0, 1, (2, 3)⟩), none, none, none],
    [some (.nonLocal "Q" ⟨.cx, 0, 2, (2, 3)⟩), none, none, none]]⟩
  have runs : (Pass.check.run ⟨c, {}⟩).toOption.isSome := by decide +kernel
  obtain ⟨after, accepted⟩ := Option.isSome_iff_exists.mp runs
  rw [Except.toOption_eq_some] at accepted
  have isColumn : c.columns[1] ∈ c.columns := List.getElem_mem _
  exact (all _ _ accepted).off 0 _ (.outer isColumn) 2 (by decide +kernel) (by decide +kernel)

end Circuit

end CircuitGrid
