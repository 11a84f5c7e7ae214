import CircuitGrid.Catalog
import CircuitGrid.Distribution.Pass
import CircuitGrid.Proofs.Accepting
import CircuitGrid.Proofs.Linking
import CircuitGrid.Proofs.Partitions

/-!
# Distributing a circuit twice

Linking takes away the sites of its partition and adds none: a placeholder is no site, and the cells
around it are those of the old column. The links it appends come after all wires, so the wires that
are no links are as many as before, and a second distribution finds the same partition, no site, and
a circuit that was checked already.

* **`Column.Split.mem_sites_linked`**: the sites that linking leaves, for any second partition;
* `Circuit.dataWires_linked`: linking keeps the number of wires that are no links;
* `Circuit.siteOf?_linkReport`: the sites that the report of a link knows;
* `Circuit.distribute_eq_ok`, **`Circuit.distribute_distribute`**.
-/

namespace CircuitGrid

/-! ## The sites that linking leaves -/

namespace Column

variable {p q : Partition} {index wires : Nat} {column column' : Column Gate} {s : Site}
  {links : List Link}

/-- Sites are recognised by the gates of a column with their rows, and by nothing else. -/
theorem sites_congr (same : placed column' = placed column) :
    sites p index column' = sites p index column := by
  simp only [sites, same]

/-- A site of one partition whose wires another one separates is a site of that one, too. -/
theorem mem_sites_of_crossing {pair : BlockPair} (h : s ∈ sites q index column)
    (crossing : p.crossing s.source s.target = some pair) :
    { s with pair := pair } ∈ sites p index column := by
  obtain ⟨here, rows, -, shape⟩ := mem_sites.mp h
  refine mem_sites.mpr ⟨here, rows, crossing, ?_⟩
  obtain ⟨g, tall⟩ | ⟨control, payload, under⟩ := shape
  · exact .inl ⟨g, tall.free, tall.placed, tall.acts, tall.kind, tall.target⟩
  · exact .inr ⟨control, payload, under.one_control, under.one_payload, under.bit, under.kind⟩

/-- Where tall sites are replaced, the other tall gates stay. -/
theorem mem_sites_of_free (split : Split wires column)
    (replaces : Replaces p links index column column')
    (free : ∀ c ∈ placed column, ¬ c.2.isControl) :
    s ∈ sites q index column' ↔
      s ∈ sites q index column ∧ p.crossing s.source s.target = none := by
  have free' : ∀ c ∈ placed column', ¬ c.2.isControl := by
    intro c h
    obtain ⟨t, -, link, -, -, new⟩ | ⟨-, old⟩ := (replaces c.1 c.2).mp h
    · rw [new]
      exact Bool.false_ne_true
    · exact free c old
  constructor
  · intro h
    obtain ⟨g, tall⟩ := isTall_of_mem_sites free' h
    obtain ⟨here, rows, crossing, -⟩ := mem_sites.mp h
    obtain ⟨t, -, link, -, -, rfl⟩ | ⟨outside, old⟩ := (replaces s.source g).mp tall.placed
    · cases (Gate.tallEntangler?_eq_some.mp tall.kind).1
    · have before : s ∈ sites q index column :=
        mem_sites.mpr ⟨here, rows, crossing, .inl ⟨g, free, old, tall.acts, tall.kind, tall.target⟩⟩
      refine ⟨before, Option.eq_none_iff_forall_not_mem.mpr fun pair separated => ?_⟩
      refine outside _ (mem_sites_of_crossing before separated) ?_
      rw [show ({ s with pair := pair } : Site).rows = s.rows from rfl, rows]
      exact List.mem_cons_self
  · rintro ⟨h, together⟩
    obtain ⟨g, tall⟩ := isTall_of_mem_sites free h
    obtain ⟨here, rows, crossing, -⟩ := mem_sites.mp h
    have stays : (s.source, g) ∈ placed column' := by
      refine (replaces s.source g).mpr (.inr ⟨fun t isSite inside => ?_, tall.placed⟩)
      -- A tall gate on a row of another one is that one, whose wires the partition separates.
      obtain ⟨g', tall'⟩ := isTall_of_mem_sites free isSite
      obtain ⟨-, rows', separated, -⟩ := mem_sites.mp isSite
      rw [rows', ← tall'.rowsAt] at inside
      have own : s.source ∈ g.rowsAt s.source := split.own_row _ _ tall.placed
      have same := congrArg (·.1) (split.unique tall.placed tall'.placed own inside)
      rw [tall'.target, ← show s.source = t.source from same, ← tall.target, together] at separated
      cases separated
    exact mem_sites.mpr ⟨here, rows, crossing,
      .inl ⟨g, free', stays, tall.acts, tall.kind, tall.target⟩⟩

/-- Where a controlled site is replaced, no site is left, and there was no other. -/
theorem mem_sites_of_controlled {t : Site} {control payload : Gate}
    (replaces : Replaces p links index column column') (isSite : t ∈ sites p index column)
    (under : IsControlled column t control payload) :
    s ∈ sites q index column' ↔
      s ∈ sites q index column ∧ p.crossing s.source s.target = none := by
  obtain ⟨-, rows, separated, -⟩ := mem_sites.mp isSite
  have idle : ∀ c ∈ placed column',
      (∃ t link, c.2 = Site.placeholder t link) ∨ (¬ c.2.isControl ∧ c.2.hasNoEffect) := by
    intro c h
    obtain ⟨t, -, link, -, -, new⟩ | ⟨outside, old⟩ := (replaces c.1 c.2).mp h
    · exact .inl ⟨t, link, new⟩
    · have away := outside t isSite
      rw [rows, List.mem_pair, not_or] at away
      exact .inr (under.rest old away.1 away.2)
  constructor
  · intro h
    obtain ⟨-, -, -, ⟨g, tall⟩ | ⟨control', payload', under'⟩⟩ := mem_sites.mp h
    · obtain ⟨t, link, rfl⟩ | ⟨-, spacer⟩ := idle _ tall.placed
      · cases (Gate.tallEntangler?_eq_some.mp tall.kind).1
      · exact absurd spacer tall.acts
    · obtain ⟨inside, isControl⟩ := under'.placed_control
      obtain ⟨t, link, rfl⟩ | ⟨other, -⟩ := idle _ inside
      · cases isControl
      · exact absurd isControl other
  · rintro ⟨h, together⟩
    obtain ⟨-, -, -, ⟨g, tall⟩ | ⟨control', payload', under'⟩⟩ := mem_sites.mp h
    · obtain ⟨inside, isControl⟩ := under.placed_control
      exact absurd isControl (tall.free _ inside)
    · have sameControl := under.one_control.symm.trans under'.one_control
      have samePayload := under.one_payload.symm.trans under'.one_payload
      simp only [List.cons.injEq, Prod.mk.injEq, and_true] at sameControl samePayload
      rw [sameControl.1, samePayload.1, together] at separated
      cases separated

/-- **The sites of a column that linking leaves** are those whose wires the partition does not
separate. -/
theorem Split.mem_sites_linked (split : Split wires column)
    (replaces : Replaces p links index column column') :
    s ∈ sites q index column' ↔
      s ∈ sites q index column ∧ p.crossing s.source s.target = none := by
  cases found : sites p index column with
  | nil =>
    have same : placed column' = placed column := by
      refine placed_eq (pairwise_placed column) fun row g => ?_
      rw [replaces row g, found]
      simp
    rw [sites_congr same, iff_self_and]
    refine fun h => Option.eq_none_iff_forall_not_mem.mpr fun pair separated => ?_
    have isSite : _ ∈ sites p index column := mem_sites_of_crossing h separated
    rw [found] at isSite
    cases isSite
  | cons t rest =>
    have isSite : t ∈ sites p index column := by
      rw [found]
      exact List.mem_cons_self
    obtain ⟨-, -, -, ⟨g, tall⟩ | ⟨control, payload, under⟩⟩ := mem_sites.mp isSite
    · exact mem_sites_of_free split replaces tall.free
    · exact mem_sites_of_controlled replaces isSite under

end Column

namespace Circuit

variable {c : Circuit} {p q : Partition} {s : Site}

theorem mem_sites_linked (linkable : c.Linkable p) :
    s ∈ (c.linked p).sites q ↔ s ∈ c.sites q ∧ p.crossing s.source s.target = none := by
  have each {column : Column Gate} (found : c.columns[s.column]? = some column) :
      s ∈ Column.sites q s.column (c.linkedColumn p s.column column) ↔
        s ∈ Column.sites q s.column column ∧ p.crossing s.source s.target = none :=
    (linkable.split column (List.mem_of_getElem? found)).mem_sites_linked
      (replaces_linkedColumn linkable found)
  simp only [mem_sites, linked, List.getElem?_mapIdx, Option.map_eq_some_iff]
  constructor
  · rintro ⟨_, ⟨column, found, rfl⟩, isSite⟩
    obtain ⟨before, together⟩ := (each found).mp isSite
    exact ⟨⟨column, found, before⟩, together⟩
  · rintro ⟨⟨column, found, before⟩, together⟩
    exact ⟨_, ⟨column, found, rfl⟩, (each found).mpr ⟨before, together⟩⟩

theorem crossing_of_mem_sites (h : s ∈ c.sites p) : p.crossing s.source s.target = some s.pair := by
  obtain ⟨column, -, isSite⟩ := mem_sites.mp h
  exact (Column.mem_sites.mp isSite).2.2.1

theorem sites_linked (linkable : c.Linkable p) :
    (c.linked p).sites p = [] := by
  refine List.eq_nil_iff_forall_not_mem.mpr fun s h => ?_
  obtain ⟨before, together⟩ := (mem_sites_linked linkable).mp h
  rw [crossing_of_mem_sites before] at together
  cases together

/-! ## Wires that are no links -/

theorem le_foldl_min {k start : Nat} {ns : List Nat} :
    k ≤ ns.foldl min start ↔ k ≤ start ∧ ∀ n ∈ ns, k ≤ n := by
  induction ns generalizing start with
  | nil => simp
  | cons n rest ih =>
    rw [List.foldl_cons, ih, Nat.le_min, List.forall_mem_cons, and_assoc]

theorem le_dataWires {k : Nat} : k ≤ c.dataWires ↔
    k ≤ c.wires ∧ ∀ i row payload, c.placeholder? i row = some payload →
      k ≤ payload.link.1 ∧ k ≤ payload.link.2 := by
  rw [dataWires, le_foldl_min]
  refine and_congr_right fun _ => ?_
  simp only [List.mem_flatMap, Prod.exists, mem_placements, placeholder?_eq_some]
  constructor
  · rintro h i row payload ⟨g, found, role⟩
    exact ⟨h _ ⟨i, row, g, found, by simp [role]⟩, h _ ⟨i, row, g, found, by simp [role]⟩⟩
  · rintro h wire ⟨i, row, g, found, named⟩
    split at named
    · next payload role =>
      obtain ⟨first, second⟩ := h i row payload ⟨g, found, role⟩
      rw [List.mem_pair] at named
      obtain rfl | rfl := named
      · exact first
      · exact second
    · cases named

theorem dataWires_linked (linkable : c.Linkable p) :
    (c.linked p).dataWires = c.dataWires := by
  refine Nat.le_antisymm (le_dataWires.mpr ⟨?_, ?_⟩) (le_dataWires.mpr ⟨?_, ?_⟩)
  · -- The first new wire is named by the placeholder of some site.
    obtain ⟨below, links⟩ := le_dataWires.mp (Nat.le_refl (c.linked p).dataWires)
    cases pairs : BlockPair.ordered ((c.sites p).map (·.pair)) with
    | nil => simpa [linked, linksFor, pairs, linksFrom] using below
    | cons pair rest =>
      have isPair : pair ∈ (c.sites p).map (·.pair) := by
        rw [← BlockPair.mem_ordered, pairs]
        exact List.mem_cons_self
      obtain ⟨s, isSite, rfl⟩ := List.mem_map.mp isPair
      have isLink : s.link? (c.linksFor p) = some ⟨s.pair, c.wires, c.wires + 1⟩ := by
        simp [Site.link?, linksFor, pairs, linksFrom]
      have found := (cell?_linked linkable).mpr (.inl ⟨s, isSite, _, isLink, rfl, rfl, rfl⟩)
      exact (links _ _ _ (placeholder?_of_cell? found)).1
  · intro i row payload found
    exact (le_dataWires.mp (Nat.le_refl _)).2 i row payload (placeholder?_linked linkable found)
  · exact Nat.le_trans (le_dataWires.mp (Nat.le_refl _)).1 (Nat.le_add_right _ _)
  · intro i row payload found
    obtain ⟨below, links⟩ := le_dataWires.mp (Nat.le_refl c.dataWires)
    obtain ⟨g, here, role⟩ := placeholder?_eq_some.mp found
    obtain ⟨s, isSite, link, isLink, -, -, rfl⟩ | ⟨-, before⟩ := (cell?_linked linkable).mp here
    · cases role
      obtain ⟨-, low, next, -⟩ := mem_linksFrom (List.mem_of_find?_eq_some isLink)
      show c.dataWires ≤ link.first ∧ c.dataWires ≤ link.second
      omega
    · exact links i row payload (placeholder?_eq_some.mpr ⟨g, before, role⟩)

theorem dataWires_congr {c' : Circuit} (wires : c'.wires = c.wires)
    (same : ∀ i row, c'.placeholder? i row = c.placeholder? i row) :
    c'.dataWires = c.dataWires := by
  have bound (k : Nat) : k ≤ c'.dataWires ↔ k ≤ c.dataWires := by
    rw [le_dataWires, le_dataWires, wires]
    simp only [same]
  exact Nat.le_antisymm ((bound _).mp (Nat.le_refl _)) ((bound _).mpr (Nat.le_refl _))

/-! ## Reports -/

/-- The report of a link knows the site of every placeholder that was put in. -/
theorem siteOf?_linkReport (linkable : c.Linkable p)
    (h : s ∈ c.sites p) {payload : Placeholder} (source : payload.source = s.source)
    (target : payload.target = s.target) :
    (c.linkReport p).siteOf? s.column payload = some s := by
  obtain ⟨column, found, isSite⟩ := mem_sites.mp h
  have split := linkable.split column (List.mem_of_getElem? found)
  cases known : (c.linkReport p).siteOf? s.column payload with
  | none =>
    have other := List.find?_eq_none.mp known s h
    simp [source, target] at other
  | some t =>
    have isSite' : t ∈ c.sites p := List.mem_of_find?_eq_some known
    have ends : (t.column = s.column ∧ t.source = s.source) ∧ t.target = s.target := by
      simpa [source, target] using List.find?_some known
    have inside : t ∈ Column.sites p s.column column := by
      rw [← filter_sites found]
      exact List.mem_filter.mpr ⟨isSite', by simpa using ends.1.1⟩
    refine congrArg some (split.sites_unique (r := t.source) inside isSite ?_ ?_)
    · rw [(Column.mem_sites.mp inside).2.1]
      exact List.mem_cons_self
    · rw [(Column.mem_sites.mp isSite).2.1, ends.1.2]
      exact List.mem_cons_self

/-- It knows no site of a placeholder that was there before: no site lies between its ends. -/
theorem siteOf?_linkReport_of_placeholder
    (linkable : c.Linkable p) {i row : Nat} {g : Gate}
    {payload : Placeholder} (found : c.cell? i row = some g)
    (role : g.placeholder? = some payload) : (c.linkReport p).siteOf? i payload = none := by
  refine List.find?_eq_none.mpr fun t isSite same => ?_
  have ends : (t.column = i ∧ t.source = payload.source) ∧ t.target = payload.target := by
    simpa using same
  obtain ⟨column, isColumn, isSite⟩ := mem_sites.mp isSite
  obtain ⟨column', isColumn', placed⟩ := cell?_eq_some.mp found
  rw [ends.1.1] at isColumn
  rw [isColumn, Option.some.injEq] at isColumn'
  subst isColumn'
  have covers : t.source ∈ g.rowsAt row := by
    exact (Gate.mem_rowsAt_of_placeholder role).mpr (.inl ends.1.2)
  have own : t.source ∈ t.rows := by
    rw [(Column.mem_sites.mp isSite).2.1]
    exact List.mem_cons_self
  rw [← ends.1.1] at isColumn
  have split := linkable.split column (List.mem_of_getElem? isColumn)
  have inside := (linkable.owns isColumn isSite).closed row g placed t.source covers own
  rw [(split.plain_of_mem_rows isSite placed inside).1] at role
  cases role

/-! ## Distributing -/

/-- A circuit is distributed when it can be linked for the balanced partition of its wires that are
no links and the outcome is accepted. -/
theorem distribute_eq_ok {requested : Nat} {d : Distribution} :
    c.distribute requested = .ok d ↔
      d.partition = Partition.ofCircuit c requested ∧
        c.link d.partition = .ok (d.circuit, d.report) ∧
          ∃ counts, d.circuit.checkLinks (some d.partition) (some d.report) = .ok counts := by
  obtain ⟨circuit, partition, report⟩ := d
  simp only [distributeIn, Pass.distributing, if_true, Pass.runAllIn, Pass.isDue,
    Option.isNone_none, Pass.runIn, Option.getD_some, Partition.ofCircuit?_unlimited]
  cases linked : c.link (Partition.ofCircuit c requested) with
  | error e =>
    simp only [reduceCtorEq, false_iff]
    rintro ⟨rfl, ok, -⟩
    rw [linked] at ok
    cases ok
  | ok outcome =>
    obtain ⟨out, report'⟩ := outcome
    dsimp only
    cases checked : out.checkLinks (some (Partition.ofCircuit c requested)) (some report') with
    | error fault =>
      simp only [reduceCtorEq, false_iff]
      rintro ⟨rfl, ok, counts, accepted⟩
      rw [linked, Except.ok.injEq, Prod.mk.injEq] at ok
      obtain ⟨rfl, rfl⟩ := ok
      rw [checked] at accepted
      cases accepted
    | ok counts =>
      simp only [Properties.insert, Except.ok.injEq, Distribution.mk.injEq]
      constructor
      · rintro ⟨rfl, rfl, rfl⟩
        exact ⟨rfl, linked, counts, checked⟩
      · rintro ⟨rfl, ok, -⟩
        rw [linked, Except.ok.injEq, Prod.mk.injEq] at ok
        exact ⟨ok.1, rfl, ok.2⟩

theorem linked_of_sites_eq_nil (linkable : c.Linkable p)
    (none : c.sites p = []) : c.link p = .ok (c, ⟨c.wires, [], []⟩) := by
  have links : c.linksFor p = [] := by
    rw [linksFor, none]
    rfl
  rw [linkable.link_eq, linkReport, links, none, Except.ok.injEq, Prod.mk.injEq]
  refine ⟨?_, rfl⟩
  obtain ⟨wires, columns⟩ := c
  simp only [linked, links, Grid.mk.injEq, List.length_nil, Nat.zero_mul, Nat.add_zero, true_and]
  refine List.mapIdx_eq_iff.mpr fun i => ?_
  cases found : columns[i]? with
  | none => rfl
  | some column =>
    have blank : Column.sites p i column = [] := by
      rw [← filter_sites (c := ⟨wires, columns⟩) found, none]
      rfl
    rw [Option.map_some, linkedColumn, links, blank]
    simp [Column.putLinks]

/-- **Distributing a distributed circuit changes nothing.** Whenever a circuit that can be built is
distributed, its outcome is distributed over as many blocks again, with the same partition, no
further link and no further site. -/
theorem distribute_distribute {requested : Nat} {d : Distribution} (built : c.Built)
    (h : c.distribute requested = .ok d) :
    ∃ d', d.circuit.distribute requested = .ok d' ∧ d'.circuit = d.circuit ∧
      d'.partition = d.partition ∧ d'.report.links = [] ∧ d'.report.sites = [] := by
  obtain ⟨isPartition, linked, counts, checked⟩ := distribute_eq_ok.mp h
  have linkable : c.Linkable d.partition := by
    refine .of_wires_le built.split ?_
    rw [isPartition, Partition.ofCircuit, Partition.wires_clamped]
    exact (le_dataWires.mp (Nat.le_refl c.dataWires)).1
  rw [linkable.link_eq, Except.ok.injEq, Prod.mk.injEq] at linked
  obtain ⟨isLinked, -⟩ := linked
  obtain ⟨valid, each⟩ := exists_checkLinks.mp ⟨counts, checked⟩
  have samePartition : Partition.ofCircuit d.circuit requested = d.partition := by
    rw [← isLinked, Partition.ofCircuit, dataWires_linked linkable, isPartition,
      Partition.ofCircuit]
  have noSites : d.circuit.sites d.partition = [] := by
    rw [← isLinked]
    exact sites_linked linkable
  have again : d.circuit.link d.partition = .ok (d.circuit, ⟨d.circuit.wires, [], []⟩) :=
    linked_of_sites_eq_nil (.of_apart (validate_eq_ok.mp valid).1) noSites
  have accepted : ∃ counts, d.circuit.checkLinks (some d.partition)
      (some ⟨d.circuit.wires, [], []⟩) = .ok counts :=
    exists_checkLinks.mpr ⟨valid, fun i row g found => (each i row g found).withoutSites _⟩
  refine ⟨⟨d.circuit, d.partition, ⟨d.circuit.wires, [], []⟩⟩, ?_, rfl, rfl, rfl, rfl⟩
  exact distribute_eq_ok.mpr ⟨samePartition.symm, again, accepted⟩

/-- A placeholder of unknown origin beside two sites, the circuit being distributed twice. -/
theorem distribute_distribute_beside_placeholder :
    let old : Gate := .nonLocal "old" ⟨.cz, 3, 0, (4, 5)⟩
    let c : Circuit := ⟨6, [[some old, none, none, none, none, none],
      [none, Catalog.find? "CNOT", none, none, none, none],
      [Catalog.find? "•", none, none, Catalog.find? "X", none, none]]⟩
    c.Built ∧ ∃ d, c.distribute 2 = .ok d ∧ d.report.sites.length = 2 ∧
      ∃ d', d.circuit.distribute 2 = .ok d' ∧ d'.circuit = d.circuit ∧
        d'.partition = d.partition ∧ d'.report.links = [] ∧ d'.report.sites = [] := by
  intro old c
  have built : c.Built := .of_valid (by decide +kernel)
  have two : (c.distribute 2).toOption.map (·.report.sites.length) = some 2 := by decide +kernel
  cases distributed : c.distribute 2 with
  | error e =>
    rw [distributed] at two
    cases two
  | ok d =>
    rw [distributed] at two
    exact ⟨built, d, rfl, Option.some.inj two, distribute_distribute built distributed⟩

end Circuit

end CircuitGrid
