import CircuitGrid.Proofs.Checked
import CircuitGrid.Proofs.Editing
import CircuitGrid.Proofs.Sites

/-!
# Replacing all sites of a circuit

Sites own their rows, so every placeholder finds its place, and linking a circuit cannot fail. The
outcome is the circuit on more wires, every column with the placeholders for its sites. For that no
row may belong to two gates, and the sites must lie inside the circuit; other gates may leave it.

* `Circuit.replaceSite_eq`: one site;
* `Circuit.replaceSites_eq`: sites one after the other;
* `Circuit.Linkable`: the circuits that can be linked for a partition;
* **`Circuit.Linkable.link_eq`**, `Circuit.cell?_linked`: what linking a circuit gives;
* `Circuit.validate_linked`: a well-formed circuit stays well formed;
* `Circuit.exists_mem_linksFrom`, `Circuit.exists_site`: the wires of links, and the sites they are
  for.
-/

namespace CircuitGrid

namespace Circuit

variable {c : Circuit} {s : Site} {link : Link} {links : List Link} {sites : List Site}

/-! ## One site -/

/-- Takes the cells of a site out of a column. -/
def clearRows (s : Site) (column : Column Gate) : Column Gate :=
  (column.set s.source none).set s.target none

theorem clearSite_eq (rows : s.rows = [s.source, s.target]) :
    c.clearSite s = { c with columns := c.columns.modify s.column (clearRows s) } := by
  rw [clearSite, rows]
  simp only [List.foldl_cons, List.foldl_nil, clear, setCell, List.modify_modify_eq]
  rfl

theorem mem_clearRows {column : Column Gate} (rows : s.rows = [s.source, s.target]) {row : Nat}
    {g : Gate} : (row, g) ∈ Column.placed (clearRows s column) ↔
      row ∉ s.rows ∧ (row, g) ∈ Column.placed column := by
  rw [Column.mem_placed, Column.mem_placed, clearRows, rows, List.mem_pair]
  simp only [List.getElem?_set, List.length_set]
  grind

theorem covers_clearRows {column : Column Gate} (owns : s.Owns column) {r : Nat} (h : r ∈ s.rows) :
    Column.covers (clearRows s column) r = false := by
  rw [Column.covers, List.any_eq_false]
  rintro ⟨row, g⟩ placed
  obtain ⟨outside, placed⟩ := (mem_clearRows owns.rows_eq).mp placed
  simp only [List.contains_eq_mem, decide_eq_true_eq]
  exact fun covers => outside (owns.closed row g placed r covers h)

/-- A site that owns its rows is replaced by its placeholder. -/
theorem replaceSite_eq {column : Column Gate} (found : c.columns[s.column]? = some column)
    (length : column.length = c.wires) (owns : s.Owns column) :
    c.replaceSite s link =
      .ok { c with columns := c.columns.modify s.column (Column.putLink s link) } := by
  have covers {row r : Nat} : r ∈ (s.placeholder link).rowsAt row ↔ r ∈ s.rows :=
    Site.mem_rowsAt_placeholder owns.rows_eq
  have inside : s.top ∈ s.rows := by
    rw [owns.rows_eq, List.mem_pair, Site.top]
    omega
  have within : ∀ r ∈ (s.placeholder link).rowsAt s.top, r < c.wires := by
    intro r h
    rw [covers, owns.rows_eq, List.mem_pair] at h
    have source := owns.source_lt
    have target := owns.target_lt
    omega
  have below : ((s.placeholder link).rowsAt s.top).find? (c.wires ≤ ·) = none := by
    simpa using within
  have cleared : (c.columns.modify s.column (clearRows s))[s.column]?.getD [] =
      clearRows s column := by
    simp [found]
  have free : ((s.placeholder link).rowsAt s.top).find? (Column.covers (clearRows s column)) =
      none := by
    rw [List.find?_eq_none]
    intro r h
    rw [covers_clearRows owns (covers.mp h)]
    exact Bool.false_ne_true
  have here : s.column < c.columns.length := (List.getElem?_eq_some_iff.mp found).1
  rw [replaceSite, clearSite_eq owns.rows_eq, place]
  simp only [Gate.listRows_of_inside within, below, Grid.column, cleared, free]
  have reach : (c.columns.modify s.column (clearRows s))[s.column]? = some (clearRows s column) := by
    simp [found]
  have slot : s.top < (clearRows s column).length := by
    simp only [clearRows, List.length_set, length]
    exact within s.top (covers.mpr inside)
  rw [if_pos (by simpa using covers.mpr inside), if_pos (by simpa [canReach, reach] using slot)]
  have full : s.column + 1 - c.columns.length = 0 := by omega
  simp only [setCell, growTo, List.length_modify, full, List.replicate_zero, List.append_nil,
    List.modify_modify_eq]
  rfl

/-! ## Sites one after the other -/

/-- The circuit with placeholders for sites. -/
def withLinks (links : List Link) (sites : List Site) (c : Circuit) : Circuit :=
  ⟨c.wires, c.columns.mapIdx fun i column =>
    Column.putLinks links (sites.filter (·.column = i)) column⟩

/-- Sites that own their rows and share none are replaced, whatever their order. -/
theorem replaceSites_eq (even : ∀ column ∈ c.columns, column.length = c.wires)
    (owned : ∀ s ∈ sites, ∃ column, c.columns[s.column]? = some column ∧ s.Owns column)
    (disjoint : sites.Pairwise fun s t => s.column = t.column → s.rows.Disjoint t.rows)
    (linked : ∀ s ∈ sites, ∃ link, s.link? links = some link) :
    replaceSites links c sites = .ok (c.withLinks links sites) := by
  induction sites generalizing c with
  | nil =>
    obtain ⟨wires, columns⟩ := c
    simp only [replaceSites, withLinks, Except.ok.injEq, Grid.mk.injEq, true_and]
    exact (List.mapIdx_eq_iff.mpr fun i => by simp [Column.putLinks]).symm
  | cons s rest ih =>
    obtain ⟨first, others⟩ := List.pairwise_cons.mp disjoint
    obtain ⟨column, found, owns⟩ := owned s List.mem_cons_self
    obtain ⟨link, isLink⟩ := linked s List.mem_cons_self
    rw [replaceSites, show links.find? (·.pair = s.pair) = some link from isLink]
    simp only [replaceSite_eq found (even column (List.mem_of_getElem? found)) owns,
      Except.ok_bind]
    rw [ih ?_ ?_ others fun t h => linked t (List.mem_cons_of_mem s h)]
    · simp only [withLinks, Except.ok.injEq, Grid.mk.injEq, true_and]
      apply List.ext_getElem?
      intro i
      rw [List.getElem?_mapIdx, List.getElem?_mapIdx, List.getElem?_modify]
      cases c.columns[i]? with
      | none => rfl
      | some column =>
        by_cases here : s.column = i
        · simp [here, Column.putLinks_cons isLink]
        · simp [here]
    · intro other h
      obtain ⟨i, found'⟩ := List.mem_iff_getElem?.mp h
      simp only [List.getElem?_modify, Option.map_eq_map, Option.map_eq_some_iff] at found'
      obtain ⟨before, found', rfl⟩ := found'
      have length := even before (List.mem_of_getElem? found')
      split
      · rwa [Column.length_putLink]
      · exact length
    · intro t h
      obtain ⟨column', found', owns'⟩ := owned t (List.mem_cons_of_mem s h)
      simp only [List.getElem?_modify, Option.map_eq_map, Option.map_eq_some_iff]
      by_cases here : s.column = t.column
      · rw [here, found', Option.some.injEq] at found
        refine ⟨_, ⟨column', found', if_pos here⟩, ?_⟩
        rw [found] at owns' ⊢
        exact Column.owns_putLink owns owns' (first t h here)
      · exact ⟨_, ⟨column', found', if_neg here⟩, owns'⟩

/-! ## All sites of a circuit -/

theorem mem_sites {p : Partition} : s ∈ c.sites p ↔
    ∃ column, c.columns[s.column]? = some column ∧ s ∈ Column.sites p s.column column := by
  simp only [sites, List.mem_flatMap, Prod.exists, List.mem_zipIdx_iff_getElem?]
  constructor
  · rintro ⟨column, index, found, h⟩
    have same := (Column.mem_sites.mp h).1
    rw [same]
    exact ⟨column, found, h⟩
  · rintro ⟨column, found, h⟩
    exact ⟨column, s.column, found, h⟩

theorem filter_sites {p : Partition} {i : Nat} {column : Column Gate}
    (found : c.columns[i]? = some column) :
    (c.sites p).filter (·.column = i) = Column.sites p i column := by
  have others (columns : List (Column Gate)) (start : Nat)
      (away : ∀ q ∈ columns.zipIdx start, q.2 ≠ i) :
      ((columns.zipIdx start).flatMap fun (column, index) => Column.sites p index column).filter
        (·.column = i) = [] := by
    rw [List.filter_eq_nil_iff]
    intro s h
    obtain ⟨q, inside, h⟩ := List.mem_flatMap.mp h
    simpa [(Column.mem_sites.mp h).1] using away q inside
  have lt := (List.getElem?_eq_some_iff.mp found).1
  rw [sites, Grid.columns_eq found, List.zipIdx_append, List.zipIdx_cons, List.flatMap_append,
    List.flatMap_cons, List.filter_append, List.filter_append, others, others, List.nil_append,
    List.append_nil]
  · rw [List.length_take, Nat.min_eq_left (Nat.le_of_lt lt), Nat.zero_add]
    refine List.filter_eq_self.mpr fun s h => ?_
    simp [(Column.mem_sites.mp h).1]
  · intro q h
    have := List.le_snd_of_mem_zipIdx h
    rw [List.length_take] at this
    omega
  · intro q h
    have := List.snd_lt_of_mem_zipIdx h
    rw [List.length_take] at this
    omega

/-- The circuit can be linked for a partition: no row belongs to two gates, and the sites lie inside
the circuit. -/
structure Linkable (c : Circuit) (p : Partition) : Prop where
  split : ∀ column ∈ c.columns, Column.Split c.wires column
  target_lt : ∀ s ∈ c.sites p, s.target < c.wires

namespace Linkable

variable {p : Partition}

theorem of_apart (apart : ∀ column ∈ c.columns, Column.Apart c.wires column) : c.Linkable p where
  split column h := (apart column h).toSplit
  target_lt s h := by
    obtain ⟨column, found, isSite⟩ := mem_sites.mp h
    exact (apart column (List.mem_of_getElem? found)).target_lt isSite

/-- Only wires of blocks are separated, so sites lie inside when blocks do. -/
theorem of_wires_le (split : ∀ column ∈ c.columns, Column.Split c.wires column)
    (le : p.wires ≤ c.wires) : c.Linkable p where
  split := split
  target_lt s h := by
    obtain ⟨column, -, isSite⟩ := mem_sites.mp h
    obtain ⟨-, -, separated, -⟩ := Column.mem_sites.mp isSite
    obtain ⟨-, second⟩ := Partition.lt_of_crossing separated
    exact Nat.lt_of_lt_of_le second le

theorem owns {column : Column Gate} (linkable : c.Linkable p)
    (found : c.columns[s.column]? = some column) (h : s ∈ Column.sites p s.column column) :
    s.Owns column :=
  (linkable.split column (List.mem_of_getElem? found)).owns h
    (linkable.target_lt s (mem_sites.mpr ⟨column, found, h⟩))

end Linkable

theorem pairwise_sites {p : Partition} (split : ∀ column ∈ c.columns, Column.Split c.wires column) :
    (c.sites p).Pairwise fun s t => s.column = t.column → s.rows.Disjoint t.rows := by
  rw [sites, List.pairwise_flatMap]
  constructor
  · intro q inside
    have split := split q.1 (List.mem_of_getElem? (List.mem_zipIdx_iff_getElem?.mp inside))
    refine split.pairwise_sites.imp ?_
    intro s t disjoint _
    exact disjoint
  · have distinct : (c.columns.zipIdx.map (·.2)).Nodup := by
      rw [List.zipIdx_map_snd]
      exact List.nodup_range' _
    rw [List.Nodup, List.pairwise_map] at distinct
    refine distinct.imp fun {q q'} ne s hs t ht same => ?_
    rw [(Column.mem_sites.mp hs).1, (Column.mem_sites.mp ht).1] at same
    exact absurd same ne

theorem linked_sites {sites : List Site} (wire : Nat) (h : s ∈ sites) :
    ∃ link, s.link? (linksFrom wire (BlockPair.ordered (sites.map (·.pair)))) = some link := by
  have general (pairs : List BlockPair) (wire : Nat) (inside : s.pair ∈ pairs) :
      ∃ link, s.link? (linksFrom wire pairs) = some link := by
    induction pairs generalizing wire with
    | nil => cases inside
    | cons pair rest ih =>
      rw [Site.link?, linksFrom, List.find?_cons]
      by_cases here : pair = s.pair
      · simp [here]
      · simp only [here, decide_false]
        exact ih (wire + 2) ((List.mem_cons.mp inside).resolve_left (Ne.symm here))
  exact general _ wire (BlockPair.mem_ordered.mpr (List.mem_map_of_mem h))

/-! ## Linking -/

/-- The links of a circuit for a partition. -/
def linksFor (c : Circuit) (p : Partition) : List Link :=
  linksFrom c.wires (BlockPair.ordered ((c.sites p).map (·.pair)))

/-- A column with slots for the wires of links and with the placeholders for its sites. -/
def linkedColumn (c : Circuit) (p : Partition) (i : Nat) (column : Column Gate) : Column Gate :=
  Column.putLinks (c.linksFor p) (Column.sites p i column)
    (column ++ List.replicate ((c.linksFor p).length * 2) none)

/-- The circuit with the placeholders of all sites for a partition. -/
def linked (c : Circuit) (p : Partition) : Circuit :=
  ⟨c.wires + (c.linksFor p).length * 2, c.columns.mapIdx (c.linkedColumn p)⟩

/-- What is reported when a circuit is linked for a partition. -/
def linkReport (c : Circuit) (p : Partition) : Report := ⟨c.wires, c.linksFor p, c.sites p⟩

/-- **Linking a circuit** puts the placeholders of all its sites in. -/
theorem Linkable.link_eq {p : Partition} (linkable : c.Linkable p) :
    c.link p = .ok (c.linked p, c.linkReport p) := by
  let count := (c.linksFor p).length * 2
  let wider : Circuit := ⟨c.wires + count, c.columns.map (· ++ List.replicate count none)⟩
  have even : ∀ column ∈ wider.columns, column.length = wider.wires := by
    intro column h
    obtain ⟨before, inside, rfl⟩ := List.mem_map.mp h
    exact ((linkable.split before inside).append_blank count).length_eq
  have owned : ∀ s ∈ c.sites p,
      ∃ column, wider.columns[s.column]? = some column ∧ s.Owns column := by
    intro s h
    obtain ⟨column, found, isSite⟩ := mem_sites.mp h
    refine ⟨column ++ List.replicate count none, by simp [wider, found], ?_⟩
    exact (linkable.owns found isSite).append_blank count
  have replaced := replaceSites_eq even owned (pairwise_sites linkable.split)
    fun s h => linked_sites c.wires h
  have resized : c.resized (c.wires + count) = wider := resized_eq linkable.split count
  change (do
    let linked ← replaceSites (c.linksFor p) (c.resized (c.wires + count)) (c.sites p)
    Except.ok (linked, (⟨c.wires, c.linksFor p, c.sites p⟩ : Report))) = _
  rw [resized]
  rw [show replaceSites (c.linksFor p) wider (c.sites p) = _ from replaced, Except.ok_bind,
    withLinks, linked, linkReport, Except.ok.injEq, Prod.mk.injEq, Grid.mk.injEq]
  refine ⟨⟨rfl, ?_⟩, rfl⟩
  apply List.ext_getElem?
  intro i
  simp only [wider, List.getElem?_mapIdx, List.getElem?_map, Option.map_map]
  cases found : c.columns[i]? with
  | none => rfl
  | some column =>
    simp only [Option.map_some, Function.comp, filter_sites found]
    rfl

theorem link_eq (fits : ∀ column ∈ c.columns, Column.Fits c.wires column) (p : Partition) :
    c.link p = .ok (⟨c.wires + (c.linksFor p).length * 2, c.columns.mapIdx (c.linkedColumn p)⟩,
      ⟨c.wires, c.linksFor p, c.sites p⟩) :=
  (Linkable.of_apart fun column h => (fits column h).apart).link_eq

/-! ## The gates of a linked circuit -/

variable {p : Partition}

theorem exists_link (h : s ∈ c.sites p) : ∃ link, s.link? (c.linksFor p) = some link :=
  linked_sites c.wires h

theorem ends_lt (apart : ∀ column ∈ c.columns, Column.Apart c.wires column) (h : s ∈ c.sites p) :
    s.source < c.wires ∧ s.target < c.wires := by
  obtain ⟨column, found, isSite⟩ := mem_sites.mp h
  have apart := apart column (List.mem_of_getElem? found)
  have owns := apart.owns isSite
  exact ⟨apart.length_eq ▸ owns.source_lt, apart.length_eq ▸ owns.target_lt⟩

theorem mem_sites_of_column {i : Nat} {column : Column Gate} (found : c.columns[i]? = some column)
    (h : s ∈ Column.sites p i column) : s ∈ c.sites p := by
  have same := (Column.mem_sites.mp h).1
  subst same
  exact mem_sites.mpr ⟨column, found, h⟩

/-- A column of a linked circuit has placeholders in place of its sites. -/
theorem replaces_linkedColumn (linkable : c.Linkable p) {i : Nat}
    {column : Column Gate} (found : c.columns[i]? = some column) :
    Column.Replaces p (c.linksFor p) i column (c.linkedColumn p i column) :=
  (linkable.split column (List.mem_of_getElem? found)).replaces_putLinks
    (fun s h => linkable.target_lt s (mem_sites_of_column found h)) _
    fun _ h => exists_link (mem_sites_of_column found h)

/-- A gate of a linked circuit is the placeholder of a site, or a gate outside the rows of all
sites. -/
theorem cell?_linked (linkable : c.Linkable p) {i row : Nat}
    {g : Gate} : (c.linked p).cell? i row = some g ↔
      (∃ s ∈ c.sites p, ∃ link, s.link? (c.linksFor p) = some link ∧ s.column = i ∧ s.top = row ∧
        g = s.placeholder link) ∨
        ((∀ s ∈ c.sites p, s.column = i → row ∉ s.rows) ∧ c.cell? i row = some g) := by
  rw [cell?_eq_some, cell?_eq_some]
  simp only [linked, List.getElem?_mapIdx, Option.map_eq_some_iff]
  constructor
  · rintro ⟨_, ⟨column, found, rfl⟩, placed⟩
    obtain ⟨s, isSite, link, isLink, rfl, rfl⟩ | ⟨outside, placed⟩ :=
      (replaces_linkedColumn linkable found _ _).mp placed
    · have here := (Column.mem_sites.mp isSite).1
      exact .inl ⟨s, mem_sites_of_column found isSite, link, isLink, here, rfl, rfl⟩
    · refine .inr ⟨fun s isSite here => outside s ?_, column, found, placed⟩
      rw [← filter_sites found]
      exact List.mem_filter.mpr ⟨isSite, by simpa using here⟩
  · rintro (⟨s, isSite, link, isLink, rfl, rfl, rfl⟩ | ⟨outside, column, found, placed⟩)
    · obtain ⟨column, found, isSite⟩ := mem_sites.mp isSite
      refine ⟨_, ⟨column, found, rfl⟩, (replaces_linkedColumn linkable found _ _).mpr (.inl ?_)⟩
      exact ⟨s, isSite, link, isLink, rfl, rfl⟩
    · refine ⟨_, ⟨column, found, rfl⟩, (replaces_linkedColumn linkable found _ _).mpr (.inr ?_)⟩
      refine ⟨fun s isSite => ?_, placed⟩
      exact outside s (mem_sites_of_column found isSite) (Column.mem_sites.mp isSite).1

theorem apart_linked (apart : ∀ column ∈ c.columns, Column.Apart c.wires column) :
    ∀ column ∈ (c.linked p).columns, Column.Apart (c.linked p).wires column := by
  intro column h
  obtain ⟨i, found⟩ := List.mem_iff_getElem?.mp h
  simp only [linked, List.getElem?_mapIdx, Option.map_eq_some_iff] at found
  obtain ⟨before, found, rfl⟩ := found
  have apart := apart before (List.mem_of_getElem? found)
  refine (apart.append_blank _).putLinks (fun s isSite => ?_) apart.pairwise_sites
    fun s isSite => ?_
  · exact (apart.owns isSite).append_blank _
  · exact exists_link (mem_sites_of_column found isSite)

/-- A gate of a linked circuit is the placeholder of a site or was there before. -/
theorem at_linked (linkable : c.Linkable p) {g : Gate}
    (inside : (c.linked p).At g) : (∃ s ∈ c.sites p, ∃ link, s.link? (c.linksFor p) = some link ∧
      g = s.placeholder link) ∨ c.At g := by
  obtain ⟨i, row, found⟩ := at_iff.mp inside
  obtain ⟨s, isSite, link, isLink, -, -, rfl⟩ | ⟨-, before⟩ := (cell?_linked linkable).mp found
  · exact .inl ⟨s, isSite, link, isLink, rfl⟩
  · exact .inr (at_iff.mpr ⟨i, row, before⟩)

theorem at_linked_of_site (linkable : c.Linkable p) {s : Site}
    (isSite : s ∈ c.sites p) {link : Link} (isLink : s.link? (c.linksFor p) = some link) :
    (c.linked p).At (s.placeholder link) :=
  at_iff.mpr ⟨_, _, (cell?_linked linkable).mpr (.inl ⟨s, isSite, link, isLink, rfl, rfl, rfl⟩)⟩

theorem holds_linked (linkable : c.Linkable p) {g : Gate}
    (held : (c.linked p).Holds g) : (∃ s link, g = Site.placeholder s link) ∨ c.Holds g := by
  obtain ⟨g₁, inside, which⟩ := held.cases_at
  obtain ⟨s, -, link, -, rfl⟩ | before := at_linked linkable inside
  · rcases which with rfl | ⟨body, nested, -⟩
    · exact .inl ⟨s, link, rfl⟩
    · cases nested
  · rcases which with rfl | ⟨body, nested, held⟩
    · exact .inr (.here before)
    · exact .inr (.inside before nested held)

/-- A placeholder or nested circuit stays when its circuit is linked. -/
theorem cell?_linked_of_not_plain (linkable : c.Linkable p)
    {i row : Nat} {g : Gate} (other : ¬ (g.placeholder? = none ∧ g.body? = none))
    (h : c.cell? i row = some g) : (c.linked p).cell? i row = some g := by
  refine (cell?_linked linkable).mpr (.inr ⟨fun s isSite here inside => ?_, h⟩)
  obtain ⟨column, found, isSite⟩ := mem_sites.mp isSite
  obtain ⟨column', found', placed⟩ := cell?_eq_some.mp h
  rw [← here, found, Option.some.injEq] at found'
  subst found'
  have split := linkable.split column (List.mem_of_getElem? found)
  exact other (split.plain_of_mem_rows isSite placed inside)

theorem cell?_linked_of_placeholder
    (linkable : c.Linkable p) {i row : Nat} {g : Gate}
    {payload : Placeholder} (role : g.placeholder? = some payload) (h : c.cell? i row = some g) :
    (c.linked p).cell? i row = some g :=
  cell?_linked_of_not_plain linkable (by simp [role]) h

theorem placeholder?_linked (linkable : c.Linkable p)
    {i row : Nat} {payload : Placeholder} (found : c.placeholder? i row = some payload) :
    (c.linked p).placeholder? i row = some payload := by
  obtain ⟨g, here, role⟩ := placeholder?_eq_some.mp found
  exact placeholder?_eq_some.mpr ⟨g, cell?_linked_of_placeholder linkable role here, role⟩

/-- Linking neither brings in nor takes away a nested circuit. -/
theorem cell?_linked_iff_of_body (linkable : c.Linkable p)
    {i row : Nat} {g : Gate} {body : Circuit} (nested : g.body? = some body) :
    (c.linked p).cell? i row = some g ↔ c.cell? i row = some g := by
  refine ⟨fun h => ?_, cell?_linked_of_not_plain linkable (by simp [nested])⟩
  obtain ⟨s, -, link, -, -, -, rfl⟩ | ⟨-, before⟩ := (cell?_linked linkable).mp h
  · cases nested
  · exact before

theorem checkGate_placeholder (s : Site) (link : Link) :
    checkGate (s.placeholder link) = .ok () := by
  have entries : s.kind.matrix.length = matrixEntries 2 := by
    cases s.kind <;> decide
  have unitary : s.kind.matrix.isUnitary (matrixSide 2) := by
    cases s.kind <;> decide +kernel
  refine checkGate_eq_ok.mpr ⟨?_, fun body nested => by cases nested⟩
  show checkMatrix _ 2 (some s.kind.matrix) = .ok ()
  have tested : s.kind.matrix.unitary? (matrixSide 2) = some true :=
    Matrix.unitary?_eq_some_true.mpr ⟨unitary, by decide⟩
  rw [checkMatrix, if_neg (by simpa using entries), tested]
  rfl

theorem validate_linked (valid : c.validate = .ok ()) : (c.linked p).validate = .ok () := by
  obtain ⟨apart, each⟩ := validate_eq_ok.mp valid
  refine validate_eq_ok.mpr ⟨apart_linked apart, fun i row g found => ?_⟩
  obtain ⟨s, isSite, link, -, -, -, rfl⟩ | ⟨-, found⟩ := (cell?_linked (.of_apart apart)).mp found
  · obtain ⟨column, isColumn, isSite⟩ := mem_sites.mp isSite
    have ne := ((apart column (List.mem_of_getElem? isColumn)).owns isSite).ne
    exact ⟨Site.nodup_rowsAt_placeholder ne, checkGate_placeholder s link⟩
  · exact each i row g found

/-! ## The wires of links -/

/-- The links are numbered in pairs from their first wire on. -/
theorem linksFrom_eq (wire : Nat) (pairs : List BlockPair) :
    linksFrom wire pairs =
      pairs.mapIdx fun k pair => ⟨pair, wire + 2 * k, wire + 2 * k + 1⟩ := by
  induction pairs generalizing wire with
  | nil => rfl
  | cons pair rest ih =>
    rw [linksFrom, ih, List.mapIdx_cons]
    refine congrArg (List.cons _) (congrArg (List.mapIdx · rest) ?_)
    funext k pair
    rw [show wire + 2 + 2 * k = wire + 2 * (k + 1) by omega]

theorem mem_linksFrom {wire : Nat} {pairs : List BlockPair} (h : link ∈ linksFrom wire pairs) :
    link.pair ∈ pairs ∧ wire ≤ link.first ∧ link.second = link.first + 1 ∧
      link.second < wire + pairs.length * 2 := by
  rw [linksFrom_eq, List.mem_mapIdx] at h
  obtain ⟨k, bound, rfl⟩ := h
  refine ⟨List.getElem_mem bound, Nat.le_add_right wire _, rfl, ?_⟩
  dsimp only
  omega

/-- Links for pairs of blocks take all wires from the first one on, two a pair. -/
theorem exists_mem_linksFrom {first wire : Nat} {pairs : List BlockPair} :
    (∃ l ∈ linksFrom first pairs, wire ∈ [l.first, l.second]) ↔
      first ≤ wire ∧ wire < first + pairs.length * 2 := by
  constructor
  · rintro ⟨l, isLink, own⟩
    obtain ⟨-, low, next, high⟩ := mem_linksFrom isLink
    rw [List.mem_pair] at own
    omega
  · rintro ⟨low, high⟩
    have bound : (wire - first) / 2 < pairs.length := by omega
    refine ⟨⟨pairs[(wire - first) / 2], first + 2 * ((wire - first) / 2),
      first + 2 * ((wire - first) / 2) + 1⟩, ?_, ?_⟩
    · rw [linksFrom_eq, List.mem_mapIdx]
      exact ⟨_, bound, rfl⟩
    · rw [List.mem_pair]
      dsimp only
      omega

/-- The pair of a link leads back to it. -/
theorem find?_linksFrom {wire : Nat} {pairs : List BlockPair} (nodup : pairs.Nodup)
    (inside : link ∈ linksFrom wire pairs) :
    (linksFrom wire pairs).find? (·.pair = link.pair) = some link := by
  induction pairs generalizing wire with
  | nil => cases inside
  | cons pair rest ih =>
    obtain ⟨new, nodup⟩ := List.nodup_cons.mp nodup
    rw [linksFrom, List.find?_cons]
    obtain _ | ⟨_, later⟩ := inside
    · simp
    · have other : pair ≠ link.pair := by
        rintro rfl
        exact new (mem_linksFrom later).1
      simpa [other] using ih nodup later

theorem exists_site (inside : link ∈ c.linksFor p) :
    ∃ s ∈ c.sites p, s.link? (c.linksFor p) = some link := by
  obtain ⟨isPair, -⟩ := mem_linksFrom inside
  obtain ⟨s, isSite, pair⟩ := List.mem_map.mp (BlockPair.mem_ordered.mp isPair)
  have pair : s.pair = link.pair := pair
  refine ⟨s, isSite, ?_⟩
  rw [Site.link?, pair]
  exact find?_linksFrom (BlockPair.nodup_ordered _) inside

/-- Links that share a wire are the same. -/
theorem link_eq_of_shared {wire shared : Nat} {link' : Link} {pairs : List BlockPair}
    (first : link ∈ linksFrom wire pairs) (second : link' ∈ linksFrom wire pairs)
    (inFirst : shared ∈ [link.first, link.second])
    (inSecond : shared ∈ [link'.first, link'.second]) : link = link' := by
  rw [linksFrom_eq, List.mem_mapIdx] at first second
  obtain ⟨k, bound, rfl⟩ := first
  obtain ⟨k', bound', rfl⟩ := second
  rw [List.mem_pair] at inFirst inSecond
  have same : k = k' := by
    dsimp only at inFirst inSecond
    omega
  subst same
  rfl

end Circuit

end CircuitGrid
