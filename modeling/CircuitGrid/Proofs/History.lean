import CircuitGrid.Catalog
import CircuitGrid.Proofs.Partitions
import CircuitGrid.Proofs.Redistribution

/-!
# Circuits that are distributed again and again

Between the runs of a distribution the circuit is edited on its data wires: gates are placed and
cleared, columns appended. Where the data wires end is nowhere stored. Each run infers it from the
placeholders that stand in the circuit, so every placeholder has to go back to a site of some run,
and every site has to keep its placeholder.

* `Edit`, `History`, `History.Reachable`: the edits, and the states that they lead to;
* `Report.Stands`, `History.Inv`: what one edit preserves, and `History.Inv.apply`;
* `History.Inv.distribute_eq`: every state is distributed, over any number of blocks;
* **`History.Reachable.consistent`**: what holds in every state.
-/

namespace CircuitGrid

/-! ## Histories -/

/-- An edit of a circuit. -/
inductive Edit where
  /-- The circuit is replaced by the outcome of its distribution. -/
  | distribute (requested : Nat)
  | place (column row : Nat) (gate : Gate)
  | clear (column row : Nat)
  | pushColumn

/-- A circuit with the reports of all distributions so far, the latest last. -/
structure History where
  circuit : Circuit
  runs : List Report

/-- The edits that leave placeholders alone and stay on the first `wires` wires. -/
def Edit.Allowed (wires : Nat) (c : Circuit) : Edit → Prop
  | distribute _ | pushColumn => True
  | place _ row gate =>
    gate.placeholder? = none ∧ checkGate gate = .ok () ∧ ∀ r ∈ gate.rowsAt row, r < wires
  | clear column row => c.placeholder? column row = none

instance (wires : Nat) (c : Circuit) (e : Edit) : Decidable (e.Allowed wires c) :=
  match e with
  | .distribute _ | .pushColumn => .isTrue trivial
  | .place _ row gate => inferInstanceAs <| Decidable
      (gate.placeholder? = none ∧ checkGate gate = .ok () ∧ ∀ r ∈ gate.rowsAt row, r < wires)
  | .clear column row => inferInstanceAs <| Decidable (c.placeholder? column row = none)

namespace History

/-- The state after an edit. What is refused, or panics, changes nothing. -/
def apply (h : History) : Edit → History
  | .distribute requested =>
    match h.circuit.distribute requested with
    | .ok d => ⟨d.circuit, h.runs ++ [d.report]⟩
    | .error _ => h
  | .place column row gate =>
    { h with circuit := (h.circuit.place column row gate).toOption.getD h.circuit }
  | .clear column row => { h with circuit := (h.circuit.clear column row).2 }
  | .pushColumn => { h with circuit := h.circuit.pushColumn.getD h.circuit }

/-- The states that allowed edits lead to. -/
inductive Reachable (start : Circuit) : History → Prop
  | start : Reachable start ⟨start, []⟩
  | step {h : History} {e : Edit} :
      Reachable start h → e.Allowed start.wires h.circuit → Reachable start (h.apply e)

/-- The placeholder in a slot goes back to a site of the given run between the given blocks. -/
def CreatedIn (h : History) (run : Nat) (pair : BlockPair) (column row : Nat) : Prop :=
  ∃ report s, h.runs[run]? = some report ∧ s ∈ report.sites ∧ s.pair = pair ∧
    s.column = column ∧ s.top = row

/-- What holds in a state on the given number of data wires. -/
structure Consistent (wires : Nat) (h : History) : Prop where
  /-- The circuit is distributed over any number of blocks, by its data wires. -/
  distributes : ∀ requested, ∃ d, h.circuit.distribute requested = .ok d ∧
    d.partition = Partition.clamped wires requested
  dataWires_eq : h.circuit.dataWires = wires
  /-- No gate touches another wire than a data wire. -/
  below : ∀ i row g, h.circuit.cell? i row = some g → ∀ r ∈ g.rowsAt row, r < wires
  /-- Placeholders end on data wires and are linked through two others. -/
  placeholders : ∀ i row payload, h.circuit.placeholder? i row = some payload →
    payload.source < wires ∧ payload.target < wires ∧ payload.link.1 ≠ payload.link.2 ∧
      ∀ wire ∈ [payload.link.1, payload.link.2], wires ≤ wire ∧ wire < h.circuit.wires
  /-- Every link of every run has its own two wires. -/
  wires_eq : h.circuit.wires = wires + 2 * (h.runs.map (·.links.length)).sum
  /-- Placeholders that share a link wire are those of one run between the same blocks. -/
  shared : ∀ i row payload i' row' payload', h.circuit.placeholder? i row = some payload →
    h.circuit.placeholder? i' row' = some payload' →
      ((∃ wire ∈ [payload.link.1, payload.link.2], wire ∈ [payload'.link.1, payload'.link.2]) ↔
        ∃ run pair, h.CreatedIn run pair i row ∧ h.CreatedIn run pair i' row')
  /-- They share both. -/
  same_link : ∀ i row payload i' row' payload' run pair,
    h.circuit.placeholder? i row = some payload → h.circuit.placeholder? i' row' = some payload' →
      h.CreatedIn run pair i row → h.CreatedIn run pair i' row' → payload.link = payload'.link

end History

/-! ## What edits preserve -/

/-- The sites of a report have their placeholders in the circuit, linked through the wires that
followed the others at the time of the report. -/
structure Report.Stands (c : Circuit) (r : Report) : Prop where
  links_eq : r.links = Circuit.linksFrom r.wires (BlockPair.ordered (r.sites.map (·.pair)))
  inside : r.wires + r.appended ≤ c.wires
  kept : ∀ s ∈ r.sites, ∃ link, s.link? r.links = some link ∧
    c.cell? s.column s.top = some (s.placeholder link)

/-- The invariant of histories on the given number of data wires. -/
structure History.Inv (wires : Nat) (h : History) : Prop where
  valid : h.circuit.validate = .ok ()
  dataWires_eq : h.circuit.dataWires = wires
  below : ∀ i row g, h.circuit.cell? i row = some g → ∀ r ∈ g.rowsAt row, r < wires
  wires_eq : h.circuit.wires = wires + 2 * (h.runs.map (·.links.length)).sum
  /-- Every run has its report borne out by the circuit. -/
  stands : ∀ r ∈ h.runs, wires ≤ r.wires ∧ r.Stands h.circuit
  /-- Runs append their wires one after the other. -/
  rising : h.runs.Pairwise fun r r' => r.wires + r.appended ≤ r'.wires
  /-- Every placeholder goes back to a site of some run. -/
  created : ∀ i row payload, h.circuit.placeholder? i row = some payload →
    ∃ r ∈ h.runs, ∃ s ∈ r.sites, s.column = i ∧ s.top = row

namespace Report.Stands

variable {c c' : Circuit} {r : Report} {s : Site} {link : Link}

theorem mono (stands : r.Stands c) (wires : c.wires ≤ c'.wires)
    (kept : ∀ i row g payload, g.placeholder? = some payload → c.cell? i row = some g →
      c'.cell? i row = some g) : r.Stands c' := by
  refine ⟨stands.links_eq, Nat.le_trans stands.inside wires, fun s isSite => ?_⟩
  obtain ⟨link, isLink, found⟩ := stands.kept s isSite
  exact ⟨link, isLink, kept _ _ _ _ rfl found⟩

theorem range (stands : r.Stands c) (h : link ∈ r.links) :
    r.wires ≤ link.first ∧ link.second = link.first + 1 ∧ link.second < r.wires + r.appended := by
  have length : r.links.length = (BlockPair.ordered (r.sites.map (·.pair))).length := by
    rw [stands.links_eq, Circuit.length_linksFrom]
  rw [stands.links_eq] at h
  obtain ⟨-, low, next, high⟩ := Circuit.mem_linksFrom h
  exact ⟨low, next, by rwa [appended, length]⟩

theorem link_eq {link' : Link} (stands : r.Stands c) (first : link ∈ r.links)
    (second : link' ∈ r.links) {wire : Nat} (inFirst : wire ∈ [link.first, link.second])
    (inSecond : wire ∈ [link'.first, link'.second]) : link = link' := by
  rw [stands.links_eq] at first second
  exact Circuit.link_eq_of_shared first second inFirst inSecond

end Report.Stands

namespace History.Inv

variable {wires : Nat} {h : History} {c' : Circuit}

theorem le_wires (inv : h.Inv wires) : wires ≤ h.circuit.wires := by
  rw [inv.wires_eq]
  exact Nat.le_add_right _ _

theorem placeholder_eq (inv : h.Inv wires) {i row : Nat} {payload : Placeholder}
    (found : h.circuit.placeholder? i row = some payload) :
    ∃ (run : Nat) (r : Report) (s : Site) (link : Link), h.runs[run]? = some r ∧ s ∈ r.sites ∧
      s.column = i ∧ s.top = row ∧ s.link? r.links = some link ∧
        h.circuit.cell? i row = some (s.placeholder link) ∧
          payload = ⟨s.kind, s.source, s.target, link.first, link.second⟩ := by
  obtain ⟨r, isRun, s, isSite, rfl, rfl⟩ := inv.created i row payload found
  obtain ⟨run, isRun'⟩ := List.mem_iff_getElem?.mp isRun
  obtain ⟨link, isLink, kept⟩ := (inv.stands r isRun).2.kept s isSite
  rw [Circuit.placeholder?_of_cell? kept] at found
  exact ⟨run, r, s, link, isRun', isSite, rfl, rfl, isLink, kept, (Option.some.inj found).symm⟩

theorem linkable {p : Partition} (inv : h.Inv wires) : h.circuit.Linkable p :=
  .of_apart (Circuit.validate_eq_ok.mp inv.valid).1

/-! ## Edits between runs -/

/-- The invariant is kept by what leaves the wires and the placeholders as they are. -/
theorem edited (inv : h.Inv wires) (valid : c'.validate = .ok ())
    (sameWires : c'.wires = h.circuit.wires)
    (same : ∀ i row g payload, g.placeholder? = some payload →
      (c'.cell? i row = some g ↔ h.circuit.cell? i row = some g))
    (below : ∀ i row g, c'.cell? i row = some g → ∀ r ∈ g.rowsAt row, r < wires) :
    ({ h with circuit := c' } : History).Inv wires := by
  have samePlaceholder (i row : Nat) : c'.placeholder? i row = h.circuit.placeholder? i row := by
    refine Option.ext fun payload => ?_
    rw [Circuit.placeholder?_eq_some, Circuit.placeholder?_eq_some]
    exact exists_congr fun g => and_congr_left fun role => same i row g payload role
  refine ⟨valid, ?_, below, sameWires.trans inv.wires_eq, fun r isRun => ?_, inv.rising,
    fun i row payload found => ?_⟩
  · exact (Circuit.dataWires_congr sameWires samePlaceholder).trans inv.dataWires_eq
  · obtain ⟨late, stands⟩ := inv.stands r isRun
    refine ⟨late, stands.mono (Nat.le_of_eq sameWires.symm) fun i row g payload role found => ?_⟩
    exact (same i row g payload role).mpr found
  · rw [samePlaceholder] at found
    exact inv.created i row payload found

theorem place (inv : h.Inv wires) {column row : Nat} {gate : Gate}
    (flat : gate.placeholder? = none) (sound : checkGate gate = .ok ())
    (low : ∀ r ∈ gate.rowsAt row, r < wires) (placed : h.circuit.place column row gate = .ok c') :
    ({ h with circuit := c' } : History).Inv wires := by
  have split := fun slots h => ((Circuit.validate_eq_ok.mp inv.valid).1 slots h).toSplit
  have nodup : (gate.rowsAt row).Nodup := by
    rw [Gate.rowsAt_of_local (Gate.role_of_placeholder?_eq_none flat)]
    exact List.nodup_range'
  refine inv.edited (Circuit.validate_place inv.valid nodup sound placed)
    (Circuit.wires_place placed) (fun i r g payload role => ?_) fun i r g found => ?_
  · rw [Circuit.cell?_place split placed]
    split
    · next here =>
      obtain ⟨rfl, rfl⟩ := here
      rw [Circuit.cell?_eq_none_of_place split placed, Option.some.injEq]
      refine ⟨fun same => ?_, fun absent => by cases absent⟩
      rw [same, role] at flat
      cases flat
    · exact Iff.rfl
  · rw [Circuit.cell?_place split placed] at found
    split at found
    · next here =>
      cases found
      rw [← here.2]
      exact low
    · exact inv.below i r g found

theorem clear (inv : h.Inv wires) {column row : Nat}
    (flat : h.circuit.placeholder? column row = none) :
    ({ h with circuit := (h.circuit.clear column row).2 } : History).Inv wires := by
  refine inv.edited (Circuit.validate_clear inv.valid column row) rfl
    (fun i r g payload role => ?_) fun i r g found => ?_
  · rw [Circuit.cell?_clear]
    split
    · next here =>
      obtain ⟨rfl, rfl⟩ := here
      constructor
      · intro absent
        cases absent
      · intro found
        rw [← Circuit.placeholder?_of_cell? found, flat] at role
        cases role
    · exact Iff.rfl
  · rw [Circuit.cell?_clear] at found
    split at found
    · cases found
    · exact inv.below i r g found

theorem pushColumn (inv : h.Inv wires) (pushed : h.circuit.pushColumn = some c') :
    ({ h with circuit := c' } : History).Inv wires := by
  have sameWires : c'.wires = h.circuit.wires := by
    rw [(Circuit.pushColumn_eq_some.mp pushed).2]
    rfl
  refine inv.edited (Circuit.validate_pushColumn inv.valid pushed) sameWires
    (fun i r g payload _ => ?_) fun i r g found => ?_
  · rw [Circuit.cell?_pushColumn pushed]
  · rw [Circuit.cell?_pushColumn pushed] at found
    exact inv.below i r g found

/-! ## Runs -/

theorem site_lt {p : Partition} (covers : p.wires = wires) {s : Site}
    (isSite : s ∈ h.circuit.sites p) : s.source < wires ∧ s.target < wires := by
  have lt := Partition.lt_of_crossing (Circuit.crossing_of_mem_sites isSite)
  rwa [covers] at lt

theorem stands_linkReport (inv : h.Inv wires) (p : Partition) :
    (h.circuit.linkReport p).Stands (h.circuit.linked p) where
  links_eq := rfl
  inside := Nat.le_refl _
  kept s isSite := by
    obtain ⟨link, isLink⟩ := Circuit.exists_link isSite
    exact ⟨link, isLink, (Circuit.cell?_linked inv.linkable).mpr
      (.inl ⟨s, isSite, link, isLink, rfl, rfl, rfl⟩)⟩

section

variable {p : Partition} (inv : h.Inv wires) (covers : p.wires = wires)
include inv covers

theorem isLinkWire_iff {wire : Nat} :
    isLinkWire ((h.circuit.linked p).linkWires (some p)) wire ↔
      wires ≤ wire ∧ wire < (h.circuit.linked p).wires := by
  have more : wires ≤ (h.circuit.linked p).wires :=
    Nat.le_trans inv.le_wires (Nat.le_add_right _ _)
  simp only [isLinkWire, Circuit.linkWires, covers, Nat.min_eq_left more, Bool.and_eq_true,
    decide_eq_true_eq]

/-- A placeholder passes when its ends differ, its link is one of a standing report, and the new
report knows no other link for it. -/
theorem passes_placeholder {r : Report} {s : Site} {link : Link} {column row : Nat}
    (ends : s.source ≠ s.target) (late : wires ≤ r.wires)
    (stands : r.Stands (h.circuit.linked p)) (isLink : s.link? r.links = some link)
    (allocated : ∀ t, (h.circuit.linkReport p).siteOf? column
        ⟨s.kind, s.source, s.target, link.first, link.second⟩ = some t →
      (h.circuit.linkReport p).linkFor? t.pair = some link) :
    (s.placeholder link).Passes ((h.circuit.linked p).linkWires (some p))
      (some (h.circuit.linkReport p)) column row := by
  refine ⟨fun payload role => ?_, fun absent => by cases absent⟩
  cases role
  obtain ⟨low, next, high⟩ := stands.range (List.mem_of_find?_eq_some isLink)
  have inside := stands.inside
  refine checkPlaceholder_eq_ok.mpr ⟨ends, ?_, ?_, ?_, ?_, ?_⟩
  · show link.first ≠ link.second
    omega
  · show s.kind.matrix.approximates s.kind.matrix
    cases s.kind <;> decide +kernel
  · refine (inv.isLinkWire_iff covers).mpr ⟨?_, ?_⟩
    · show wires ≤ link.first
      omega
    · show link.first < _
      omega
  · refine (inv.isLinkWire_iff covers).mpr ⟨?_, ?_⟩
    · show wires ≤ link.second
      omega
    · show link.second < _
      omega
  · rintro r t same known
    cases same
    exact ⟨link, allocated t known, rfl⟩

theorem passes {i row : Nat} {g : Gate} (found : (h.circuit.linked p).cell? i row = some g) :
    g.Passes ((h.circuit.linked p).linkWires (some p)) (some (h.circuit.linkReport p)) i row := by
  have apart := (Circuit.validate_eq_ok.mp inv.valid).1
  obtain ⟨s, isSite, link, isLink, rfl, rfl, rfl⟩ | ⟨-, before⟩ :=
    (Circuit.cell?_linked inv.linkable).mp found
  · -- A new placeholder uses the link of its own site.
    obtain ⟨column, isColumn, inColumn⟩ := Circuit.mem_sites.mp isSite
    have owns := (apart column (List.mem_of_getElem? isColumn)).owns inColumn
    refine inv.passes_placeholder covers owns.ne inv.le_wires (inv.stands_linkReport p) isLink
      fun t known => ?_
    rw [Circuit.siteOf?_linkReport inv.linkable isSite rfl rfl, Option.some.injEq] at known
    rw [← known]
    exact isLink
  · cases role : g.placeholder? with
    | none =>
      refine ⟨fun payload same => ?_, fun _ r covered isLink => ?_⟩
      · rw [role] at same
        cases same
      · have low := ((inv.isLinkWire_iff covers).mp isLink).1
        exact absurd (inv.below i row g before r covered) (Nat.not_lt.mpr low)
    | some payload =>
      -- An old one keeps its link, and the new report does not know it.
      obtain ⟨run, r, s, link, isRun, -, -, -, isLink, kept, -⟩ :=
        inv.placeholder_eq ((Circuit.placeholder?_of_cell? before).trans role)
      rw [before, Option.some.injEq] at kept
      subst kept
      obtain ⟨late, stands⟩ := inv.stands r (List.mem_of_getElem? isRun)
      have ends : s.source ≠ s.target := by
        intro same
        have nodup := ((Circuit.validate_eq_ok.mp inv.valid).2 _ _ _ before).1
        change [min s.source s.target, max s.source s.target].Nodup at nodup
        simp [same] at nodup
      refine inv.passes_placeholder covers ends late ?_ isLink fun t known => ?_
      · exact stands.mono (Nat.le_add_right _ _) fun i row g payload role found =>
          Circuit.cell?_linked_of_placeholder inv.linkable role found
      · rw [Circuit.siteOf?_linkReport_of_placeholder inv.linkable before rfl] at known
        cases known

end

/-- **Every state is distributed**, over any number of blocks. -/
theorem distribute_eq (inv : h.Inv wires) (requested : Nat) :
    h.circuit.distribute requested = .ok ⟨h.circuit.linked (.clamped wires requested),
      .clamped wires requested, h.circuit.linkReport (.clamped wires requested)⟩ := by
  refine Circuit.distribute_eq_ok.mpr ⟨?_, inv.linkable.link_eq, ?_⟩
  · rw [Partition.ofCircuit, inv.dataWires_eq]
  · refine Circuit.exists_checkLinks.mpr ⟨Circuit.validate_linked inv.valid, ?_⟩
    exact fun i row g found => inv.passes (Partition.wires_clamped wires requested) found

theorem linked (inv : h.Inv wires) {p : Partition} (covers : p.wires = wires) :
    (⟨h.circuit.linked p, h.runs ++ [h.circuit.linkReport p]⟩ : History).Inv wires := by
  refine ⟨Circuit.validate_linked inv.valid, ?_, ?_, ?_, ?_, ?_, ?_⟩
  · exact (Circuit.dataWires_linked inv.linkable).trans inv.dataWires_eq
  · intro i row g found r covered
    obtain ⟨s, isSite, link, -, -, -, rfl⟩ | ⟨-, before⟩ :=
      (Circuit.cell?_linked inv.linkable).mp found
    · have lt := site_lt covers isSite
      change r ∈ [min s.source s.target, max s.source s.target] at covered
      rw [List.mem_pair] at covered
      omega
    · exact inv.below i row g before r covered
  · have total := inv.wires_eq
    simp only [Circuit.linked, Circuit.linkReport, List.map_append, List.map_cons, List.map_nil,
      List.sum_append, List.sum_cons, List.sum_nil]
    omega
  · intro r isRun
    obtain old | new := List.mem_append.mp isRun
    · obtain ⟨late, stands⟩ := inv.stands r old
      refine ⟨late, stands.mono (Nat.le_add_right _ _) fun i row g payload role found => ?_⟩
      exact Circuit.cell?_linked_of_placeholder inv.linkable role found
    · rw [List.mem_singleton.mp new]
      exact ⟨inv.le_wires, inv.stands_linkReport p⟩
  · refine List.pairwise_append.mpr ⟨inv.rising, List.pairwise_singleton _ _, ?_⟩
    intro r isRun r' new
    rw [List.mem_singleton.mp new]
    exact (inv.stands r isRun).2.inside
  · intro i row payload found
    obtain ⟨g, here, role⟩ := Circuit.placeholder?_eq_some.mp found
    obtain ⟨s, isSite, link, -, rfl, rfl, -⟩ | ⟨-, before⟩ :=
      (Circuit.cell?_linked inv.linkable).mp here
    · exact ⟨h.circuit.linkReport p, by simp, s, isSite, rfl, rfl⟩
    · obtain ⟨r, isRun, created⟩ :=
        inv.created i row payload (Circuit.placeholder?_eq_some.mpr ⟨g, before, role⟩)
      exact ⟨r, List.mem_append_left _ isRun, created⟩

/-- **An allowed edit keeps the invariant**, whether it is carried out or refused. -/
theorem apply (inv : h.Inv wires) {e : Edit} (allowed : e.Allowed wires h.circuit) :
    (h.apply e).Inv wires := by
  cases e with
  | distribute requested =>
    rw [History.apply, inv.distribute_eq requested]
    exact inv.linked (Partition.wires_clamped wires requested)
  | place column row gate =>
    obtain ⟨flat, sound, low⟩ := allowed
    rw [History.apply]
    cases placed : h.circuit.place column row gate with
    | error refusal => exact inv
    | ok c => exact inv.place flat sound low placed
  | clear column row => exact inv.clear allowed
  | pushColumn =>
    rw [History.apply]
    cases pushed : h.circuit.pushColumn with
    | none => exact inv
    | some c => exact inv.pushColumn pushed

/-! ## What the invariant says -/

theorem link_of_createdIn (inv : h.Inv wires) {run i row : Nat} {pair : BlockPair}
    {payload : Placeholder} (found : h.circuit.placeholder? i row = some payload)
    (created : h.CreatedIn run pair i row) :
    ∃ r link, h.runs[run]? = some r ∧ r.linkFor? pair = some link ∧
      payload.link = (link.first, link.second) := by
  obtain ⟨r, s, isRun, isSite, rfl, rfl, rfl⟩ := created
  obtain ⟨link, isLink, kept⟩ := (inv.stands r (List.mem_of_getElem? isRun)).2.kept s isSite
  rw [Circuit.placeholder?_of_cell? kept] at found
  cases found
  exact ⟨r, link, isRun, isLink, rfl⟩

theorem same_link (inv : h.Inv wires) {run i row i' row' : Nat} {pair : BlockPair}
    {payload payload' : Placeholder} (found : h.circuit.placeholder? i row = some payload)
    (found' : h.circuit.placeholder? i' row' = some payload') (created : h.CreatedIn run pair i row)
    (created' : h.CreatedIn run pair i' row') : payload.link = payload'.link := by
  obtain ⟨r, link, isRun, isLink, same⟩ := inv.link_of_createdIn found created
  obtain ⟨r', link', isRun', isLink', same'⟩ := inv.link_of_createdIn found' created'
  rw [isRun, Option.some.injEq] at isRun'
  rw [← isRun', isLink, Option.some.injEq] at isLink'
  rw [same, same', isLink']

theorem run_eq (inv : h.Inv wires) {run run' : Nat} {r r' : Report} (wire : Nat)
    (isRun : h.runs[run]? = some r) (isRun' : h.runs[run']? = some r')
    (inside : r.wires ≤ wire ∧ wire < r.wires + r.appended)
    (inside' : r'.wires ≤ wire ∧ wire < r'.wires + r'.appended) : run = run' := by
  obtain ⟨lt, rfl⟩ := List.getElem?_eq_some_iff.mp isRun
  obtain ⟨lt', rfl⟩ := List.getElem?_eq_some_iff.mp isRun'
  have rising := List.pairwise_iff_getElem.mp inv.rising
  by_contra differ
  obtain before | after := Nat.lt_or_gt_of_ne differ
  · have := rising run run' lt lt' before
    omega
  · have := rising run' run lt' lt after
    omega

/-- Placeholders that share a link wire go back to the same run and the same blocks. -/
theorem exists_createdIn (inv : h.Inv wires) {i row i' row' wire : Nat}
    {payload payload' : Placeholder} (found : h.circuit.placeholder? i row = some payload)
    (found' : h.circuit.placeholder? i' row' = some payload')
    (names : wire ∈ [payload.link.1, payload.link.2])
    (names' : wire ∈ [payload'.link.1, payload'.link.2]) :
    ∃ run pair, h.CreatedIn run pair i row ∧ h.CreatedIn run pair i' row' := by
  obtain ⟨run, r, s, link, isRun, isSite, rfl, rfl, isLink, -, rfl⟩ := inv.placeholder_eq found
  obtain ⟨run', r', s', link', isRun', isSite', rfl, rfl, isLink', -, rfl⟩ :=
    inv.placeholder_eq found'
  change wire ∈ [link.first, link.second] at names
  change wire ∈ [link'.first, link'.second] at names'
  have stands := (inv.stands r (List.mem_of_getElem? isRun)).2
  have stands' := (inv.stands r' (List.mem_of_getElem? isRun')).2
  have inLinks := List.mem_of_find?_eq_some isLink
  have inLinks' := List.mem_of_find?_eq_some isLink'
  have same : run = run' := by
    obtain ⟨low, next, high⟩ := stands.range inLinks
    obtain ⟨low', next', high'⟩ := stands'.range inLinks'
    have inside := List.mem_pair.mp names
    have inside' := List.mem_pair.mp names'
    exact inv.run_eq wire isRun isRun' (by omega) (by omega)
  subst same
  rw [isRun, Option.some.injEq] at isRun'
  subst isRun'
  -- One link serves one pair, so both sites lie between the same blocks.
  have sameLink := stands.link_eq inLinks inLinks' names names'
  have pair : link.pair = s.pair := by simpa using List.find?_some isLink
  have pair' : link'.pair = s'.pair := by simpa using List.find?_some isLink'
  have samePair : s'.pair = s.pair := by rw [← pair, ← pair', sameLink]
  exact ⟨run, s.pair, ⟨r, s, isRun, isSite, rfl, rfl, rfl⟩,
    ⟨r, s', isRun, isSite', samePair, rfl, rfl⟩⟩

theorem consistent_of_inv (inv : h.Inv wires) : h.Consistent wires where
  distributes requested := ⟨_, inv.distribute_eq requested, rfl⟩
  dataWires_eq := inv.dataWires_eq
  below := inv.below
  placeholders i row payload found := by
    obtain ⟨run, r, s, link, isRun, -, -, -, isLink, kept, rfl⟩ := inv.placeholder_eq found
    have low : ∀ r ∈ [min s.source s.target, max s.source s.target], r < wires :=
      inv.below i row _ kept
    obtain ⟨late, stands⟩ := inv.stands r (List.mem_of_getElem? isRun)
    obtain ⟨first, next, last⟩ := stands.range (List.mem_of_find?_eq_some isLink)
    have inside := stands.inside
    simp only [List.mem_pair, forall_eq_or_imp, forall_eq] at low ⊢
    omega
  wires_eq := inv.wires_eq
  shared i row payload i' row' payload' found found' := by
    constructor
    · rintro ⟨wire, names, names'⟩
      exact inv.exists_createdIn found found' names names'
    · rintro ⟨run, pair, created, created'⟩
      have same := inv.same_link found found' created created'
      exact ⟨payload.link.1, List.mem_cons_self, same ▸ List.mem_cons_self⟩
  same_link _ _ _ _ _ _ _ _ found found' := inv.same_link found found'

end History.Inv

/-! ## Whole histories -/

namespace History.Reachable

variable {start : Circuit} {h : History}

theorem inv_start (valid : start.validate = .ok ())
    (fresh : ∀ i row, start.placeholder? i row = none) :
    (⟨start, []⟩ : History).Inv start.wires := by
  obtain ⟨apart, -⟩ := Circuit.validate_eq_ok.mp valid
  refine ⟨valid, ?_, fun i row g found => ?_, by simp, by simp, .nil, fun i row payload found => ?_⟩
  · refine Nat.le_antisymm (Circuit.le_dataWires.mp (Nat.le_refl _)).1 ?_
    refine Circuit.le_dataWires.mpr ⟨Nat.le_refl _, fun i row payload found => ?_⟩
    rw [fresh] at found
    cases found
  · obtain ⟨slots, isColumn, placed⟩ := Circuit.cell?_eq_some.mp found
    exact (apart slots (List.mem_of_getElem? isColumn)).in_range row g placed
  · rw [fresh] at found
    cases found

/-- **The data wires stay apart from the links in every state** that allowed edits lead to from a
well-formed circuit without placeholders. -/
theorem consistent (valid : start.validate = .ok ())
    (fresh : ∀ i row, start.placeholder? i row = none) (reached : Reachable start h) :
    h.Consistent start.wires := by
  have inv : h.Inv start.wires := by
    induction reached with
    | start => exact inv_start valid fresh
    | step _ allowed ih => exact ih.apply allowed
  exact inv.consistent_of_inv

/-- Two runs over different numbers of blocks, with gates placed between them, one of which is
refused. -/
theorem consistent_two_runs :
    let start : Circuit := ⟨4, [[none, Catalog.find? "CNOT", none, none]]⟩
    let flip := Catalog.unitary "X" "Pauli X Gate" .x .cx .pauliX
    let first := (⟨start, []⟩ : History).apply (.distribute 2)
    let edited := ((first.apply (.place 1 0 (Catalog.marker "•" "Control" .control))).apply
      (.place 1 3 flip)).apply (.place 0 2 flip)
    let last := ((edited.apply (.distribute 4)).apply .pushColumn).apply (.clear 2 0)
    last.runs.map (·.links.length) = [1, 1] ∧ last.circuit.wires = 8 ∧ last.Consistent 4 := by
  intro start flip first edited last
  refine ⟨by decide +kernel, by decide +kernel, ?_⟩
  have reached : Reachable start last := by
    refine .step (.step (.step (.step (.step (.step (.step .start ?_) ?_) ?_) ?_) ?_) ?_) ?_
    all_goals decide +kernel
  have valid : start.validate = .ok () := by decide +kernel
  have flat : start.placements.all (·.2.2.placeholder?.isNone) := by decide +kernel
  refine consistent valid (fun i row => Option.eq_none_iff_forall_not_mem.mpr ?_) reached
  intro payload found
  obtain ⟨g, here, role⟩ := Circuit.placeholder?_eq_some.mp found
  have absent := List.all_eq_true.mp flat _ (Circuit.mem_placements.mpr here)
  simp [role] at absent

end History.Reachable

end CircuitGrid
