import CircuitGrid.Distribution.Basic
import CircuitGrid.Proofs.Layout

/-!
# Sites and their placeholders

The sites of a column are its tall entangling gates, or the one control of the column with the one
payload under it. A site owns its two rows: what covers one of them stands in one of them. So the
cells of a site may be taken out and its placeholder put in their place, whatever happens to the
other sites.

* `Column.mem_sites`: the two shapes of sites;
* `Site.Owns`, `Column.Split.owns`, `Column.Split.pairwise_sites`: sites own their rows and share
  none;
* `Column.putLinks`, `Column.Replaces`: a column with placeholders for sites, and
  **`Column.mem_putLinks`**: its gates.
-/

namespace CircuitGrid

/-! ## Recognising sites -/

theorem siteAt_eq_some {p : Partition} {column source target : Nat} {kind : Entangler}
    {rows : List Nat} {s : Site} : siteAt p column kind source target rows = some s ↔
      ∃ pair, p.crossing source target = some pair ∧ s = ⟨column, kind, source, target, pair, rows⟩ := by
  rw [siteAt, Option.map_eq_some_iff]
  exact exists_congr fun pair => and_congr_right fun _ => eq_comm

theorem Gate.tallEntangler?_eq_some {g : Gate} {kind : Entangler} :
    g.tallEntangler? = some kind ↔
      g.role = .unitary ∧ g.height = 2 ∧ g.entangler = some kind := by
  unfold tallEntangler?
  split
  · next role => simp [role]
  · next other => simp [show g.role ≠ .unitary from other]

/-- What becomes an entangling gate under a control is a plain gate of one row. -/
theorem Gate.controlledEntangler?_eq_some {g : Gate} {kind : Entangler}
    (h : g.controlledEntangler? = some kind) :
    (kind = .cx ∧ g.isPlain .x) ∨ (kind = .cz ∧ g.isPlain .z) := by
  unfold controlledEntangler? at h
  split at h
  · next plain => exact .inl ⟨(Option.some.inj h).symm, plain⟩
  · split at h
    · next plain => exact .inr ⟨(Option.some.inj h).symm, plain⟩
    · cases h

theorem Gate.isPlain_iff {g : Gate} {op : Op} :
    g.isPlain op ↔ g.role = .unitary ∧ g.height = 1 ∧
      ∃ e, g.exports = some e ∧ e.uncontrolled = op ∧ e.params = [] := by
  unfold isPlain
  split
  · next e role exports => simp [role, exports, and_assoc]
  · next other =>
    simp only [Bool.false_eq_true, false_iff]
    rintro ⟨role, -, e, exports, -⟩
    exact other e role exports

namespace Column

variable {p : Partition} {index : Nat} {column : Column Gate} {s : Site}

/-- The site is a tall gate in a column without controls. -/
structure IsTall (column : Column Gate) (s : Site) (g : Gate) : Prop where
  free : ∀ q ∈ placed column, ¬ q.2.isControl
  placed : (s.source, g) ∈ placed column
  acts : ¬ g.hasNoEffect
  kind : g.tallEntangler? = some s.kind
  target : s.target = s.source + 1

/-- The site is the one control of a column and the one gate under it. -/
structure IsControlled (column : Column Gate) (s : Site) (control payload : Gate) : Prop where
  one_control : (placed column).filter (·.2.isControl) = [(s.source, control)]
  one_payload : (placed column).filter (!·.2.hasNoEffect) = [(s.target, payload)]
  bit : control.controlBit = some true
  kind : payload.controlledEntangler? = some s.kind

/-- **The two shapes of sites.** -/
theorem mem_sites : s ∈ sites p index column ↔
    s.column = index ∧ s.rows = [s.source, s.target] ∧
      p.crossing s.source s.target = some s.pair ∧
        ((∃ g, IsTall column s g) ∨ ∃ control payload, IsControlled column s control payload) := by
  unfold sites
  dsimp only
  split
  · next none =>
    have free : ∀ q ∈ placed column, ¬ q.2.isControl := List.filter_eq_nil_iff.mp none
    simp only [List.mem_filterMap, List.mem_filter, Option.bind_eq_bind, Option.bind_eq_some_iff,
      siteAt_eq_some, Bool.not_eq_true']
    constructor
    · rintro ⟨⟨row, g⟩, ⟨inside, acts⟩, kind, tall, pair, crossing, rfl⟩
      exact ⟨rfl, rfl, crossing, .inl ⟨g, free, inside, by simp [acts], tall, rfl⟩⟩
    · rintro ⟨rfl, rows, crossing, ⟨g, tall⟩ | ⟨control, payload, under⟩⟩
      · refine ⟨(s.source, g), ⟨tall.placed, by simpa using tall.acts⟩, s.kind, tall.kind, s.pair, ?_⟩
        rw [← tall.target, ← rows]
        exact ⟨crossing, rfl⟩
      · rw [under.one_control] at none
        cases none
  · next source control target payload one acting =>
    constructor
    · intro h
      split at h
      · next bit =>
        simp only [Option.mem_toList, Option.bind_eq_some_iff, siteAt_eq_some] at h
        obtain ⟨kind, found, pair, crossing, rfl⟩ := h
        exact ⟨rfl, rfl, crossing, .inr ⟨control, payload, one, acting, bit, found⟩⟩
      · cases h
    · rintro ⟨rfl, rows, crossing, ⟨g, tall⟩ | ⟨control', payload', under⟩⟩
      · have isControl : (source, control) ∈ (placed column).filter (·.2.isControl) := by
          rw [one]
          exact List.mem_singleton_self _
        obtain ⟨inside, isControl⟩ := List.mem_filter.mp isControl
        exact absurd isControl (tall.free _ inside)
      · have sameControl := under.one_control.symm.trans one
        have samePayload := under.one_payload.symm.trans acting
        simp only [List.cons.injEq, Prod.mk.injEq, and_true] at sameControl samePayload
        obtain ⟨rfl, rfl⟩ := sameControl
        obtain ⟨rfl, rfl⟩ := samePayload
        rw [if_pos under.bit]
        simp only [Option.mem_toList, Option.bind_eq_some_iff, siteAt_eq_some]
        refine ⟨s.kind, under.kind, s.pair, crossing, ?_⟩
        rw [← rows]
  · next some other =>
    constructor
    · intro h
      cases h
    · rintro ⟨rfl, rows, crossing, ⟨g, tall⟩ | ⟨control, payload, under⟩⟩
      · exact absurd (List.filter_eq_nil_iff.mpr tall.free) some
      · exact absurd under.one_payload (other _ _ _ _ under.one_control)

/-! ## Sites own their rows -/

end Column

/-- The site lies in the column, and what covers one of its two rows stands in one of them. -/
structure Site.Owns (s : Site) (column : Column Gate) : Prop where
  rows_eq : s.rows = [s.source, s.target]
  ne : s.source ≠ s.target
  source_lt : s.source < column.length
  target_lt : s.target < column.length
  closed : ∀ row g, (row, g) ∈ Column.placed column → ∀ r ∈ g.rowsAt row, r ∈ s.rows → row ∈ s.rows

theorem Site.Owns.append_blank {s : Site} {column : Column Gate} (owns : s.Owns column)
    (count : Nat) : s.Owns (column ++ List.replicate count none) := by
  refine ⟨owns.rows_eq, owns.ne, ?_, ?_, ?_⟩
  · rw [List.length_append]
    exact Nat.lt_add_right _ owns.source_lt
  · rw [List.length_append]
    exact Nat.lt_add_right _ owns.target_lt
  · rw [Column.placed_append_blank]
    exact owns.closed

namespace Column

variable {p : Partition} {index wires : Nat} {column : Column Gate} {s : Site}

theorem IsTall.rowsAt {g : Gate} (tall : IsTall column s g) :
    g.rowsAt s.source = [s.source, s.target] := by
  obtain ⟨role, height, -⟩ := Gate.tallEntangler?_eq_some.mp tall.kind
  simp [Gate.rowsAt, role, height, tall.target, List.range']

theorem IsControlled.placed_control {control payload : Gate}
    (under : IsControlled column s control payload) :
    (s.source, control) ∈ placed column ∧ control.isControl := by
  have inside : (s.source, control) ∈ (placed column).filter (·.2.isControl) := by
    rw [under.one_control]
    exact List.mem_singleton_self _
  exact List.mem_filter.mp inside

theorem IsControlled.placed_payload {control payload : Gate}
    (under : IsControlled column s control payload) :
    (s.target, payload) ∈ placed column ∧ payload.hasNoEffect = false := by
  have inside : (s.target, payload) ∈ (placed column).filter (!·.2.hasNoEffect) := by
    rw [under.one_payload]
    exact List.mem_singleton_self _
  obtain ⟨inside, acts⟩ := List.mem_filter.mp inside
  exact ⟨inside, by simpa using acts⟩

theorem IsControlled.role_payload {control payload : Gate}
    (under : IsControlled column s control payload) : payload.role = .unitary := by
  obtain ⟨-, plain⟩ | ⟨-, plain⟩ := Gate.controlledEntangler?_eq_some under.kind <;>
    exact (Gate.isPlain_iff.mp plain).1

/-- Besides a controlled site there are only cells without effect that are no controls. -/
theorem IsControlled.rest {control payload : Gate}
    (under : IsControlled column s control payload) {row : Nat} {g : Gate}
    (h : (row, g) ∈ placed column) (source : row ≠ s.source) (target : row ≠ s.target) :
    ¬ g.isControl ∧ g.hasNoEffect := by
  constructor
  · intro isControl
    have inside : (row, g) ∈ (placed column).filter (·.2.isControl) :=
      List.mem_filter.mpr ⟨h, isControl⟩
    rw [under.one_control, List.mem_singleton] at inside
    exact source (congrArg (·.1) inside)
  · by_contra acts
    have inside : (row, g) ∈ (placed column).filter (!·.2.hasNoEffect) :=
      List.mem_filter.mpr ⟨h, by simpa using acts⟩
    rw [under.one_payload, List.mem_singleton] at inside
    exact target (congrArg (·.1) inside)

theorem isTall_of_mem_sites (free : ∀ q ∈ placed column, ¬ q.2.isControl)
    (h : s ∈ sites p index column) : ∃ g, IsTall column s g := by
  obtain ⟨-, -, -, tall | ⟨control, payload, under⟩⟩ := mem_sites.mp h
  · exact tall
  · obtain ⟨placed, isControl⟩ := under.placed_control
    exact absurd isControl (free _ placed)

/-- The sites of a column own their rows, as long as those are rows of the circuit. -/
theorem Split.owns (split : Split wires column) (h : s ∈ sites p index column)
    (inside : s.target < wires) : s.Owns column := by
  rw [← split.length_eq] at inside
  obtain ⟨-, rows, -, ⟨g, tall⟩ | ⟨control, payload, under⟩⟩ := mem_sites.mp h
  · have covers : ∀ r ∈ s.rows, r ∈ g.rowsAt s.source := by
      rw [tall.rowsAt, rows]
      exact fun r h => h
    refine ⟨rows, ?_, ?_, inside, ?_⟩
    · rw [tall.target]
      exact Nat.ne_of_lt (Nat.lt_succ_self _)
    · have := tall.target
      omega
    · intro row g' placed' r covers' own
      have same := split.unique tall.placed placed' (covers r own) covers'
      rw [← show s.source = row from congrArg (·.1) same, rows]
      exact List.mem_cons_self
  · obtain ⟨placedControl, isControl⟩ := under.placed_control
    obtain ⟨placedPayload, acts⟩ := under.placed_payload
    refine ⟨rows, ?_, ?_, inside, ?_⟩
    · intro same
      rw [same] at placedControl
      rw [placed_unique placedControl placedPayload] at isControl
      simp [Gate.hasNoEffect, isControl] at acts
    · rw [split.length_eq]
      exact split.row_lt placedControl
    · intro row g placed r covers own
      rw [rows, List.mem_pair] at own ⊢
      obtain rfl | rfl := own
      · have own := split.own_row _ _ placedControl
        exact .inl (congrArg (·.1) (split.unique placed placedControl covers own))
      · have own := split.own_row _ _ placedPayload
        exact .inr (congrArg (·.1) (split.unique placed placedPayload covers own))

theorem Apart.target_lt (apart : Apart wires column) (h : s ∈ sites p index column) :
    s.target < wires := by
  obtain ⟨-, -, -, ⟨g, tall⟩ | ⟨control, payload, under⟩⟩ := mem_sites.mp h
  · exact apart.in_range s.source g tall.placed s.target (by simp [tall.rowsAt])
  · exact apart.row_lt under.placed_payload.1

theorem Apart.owns (apart : Apart wires column) (h : s ∈ sites p index column) : s.Owns column :=
  apart.toSplit.owns h (apart.target_lt h)

/-- What stands in a row of a site is a payload or a control. -/
theorem Split.unitary_or_isControl (split : Split wires column) (h : s ∈ sites p index column)
    {row : Nat} {g : Gate} (placed : (row, g) ∈ placed column) (inside : row ∈ s.rows) :
    g.role = .unitary ∨ g.isControl := by
  obtain ⟨-, rows, -, ⟨tallGate, tall⟩ | ⟨control, payload, under⟩⟩ := mem_sites.mp h
  · have covers : row ∈ tallGate.rowsAt s.source := by
      rw [tall.rowsAt, ← rows]
      exact inside
    have same := split.unique tall.placed placed covers (split.own_row row g placed)
    rw [← show tallGate = g from congrArg (·.2) same]
    exact .inl (Gate.tallEntangler?_eq_some.mp tall.kind).1
  · rw [rows, List.mem_pair] at inside
    obtain rfl | rfl := inside
    · obtain ⟨placedControl, isControl⟩ := under.placed_control
      rw [placed_unique placed placedControl]
      exact .inr isControl
    · rw [placed_unique placed under.placed_payload.1]
      exact .inl under.role_payload

/-- What stands in a row of a site is no placeholder and holds no circuit. -/
theorem Split.plain_of_mem_rows (split : Split wires column) (h : s ∈ sites p index column)
    {row : Nat} {g : Gate} (placed : (row, g) ∈ placed column) (inside : row ∈ s.rows) :
    g.placeholder? = none ∧ g.body? = none := by
  obtain unitary | isControl := split.unitary_or_isControl h placed inside
  · simp [Gate.placeholder?, Gate.body?, unitary]
  · unfold Gate.isControl at isControl
    unfold Gate.placeholder? Gate.body?
    split at isControl <;> simp_all

theorem Split.pairwise_sites (split : Split wires column) :
    (sites p index column).Pairwise fun s t => s.rows.Disjoint t.rows := by
  unfold sites
  dsimp only
  split
  · rw [List.pairwise_filterMap]
    have below := (pairwise_placed column).sublist (List.filter_sublist (p := (!·.2.hasNoEffect)))
    refine below.imp_of_mem fun {q q'} hq hq' below s hs t ht r first second => ?_
    simp only [Option.bind_eq_bind, Option.bind_eq_some_iff, siteAt_eq_some] at hs ht
    obtain ⟨kind, tall, pair, -, rfl⟩ := hs
    obtain ⟨kind', tall', pair', -, rfl⟩ := ht
    obtain ⟨role, height, -⟩ := Gate.tallEntangler?_eq_some.mp tall
    obtain ⟨role', height', -⟩ := Gate.tallEntangler?_eq_some.mp tall'
    have covers : r ∈ q.2.rowsAt q.1 := by simpa [Gate.rowsAt, role, height, List.range'] using first
    have covers' : r ∈ q'.2.rowsAt q'.1 := by
      simpa [Gate.rowsAt, role', height', List.range'] using second
    have same := split.unique (List.mem_of_mem_filter hq) (List.mem_of_mem_filter hq') covers covers'
    exact absurd (congrArg (·.1) same) (Nat.ne_of_lt below)
  · split
    · generalize Option.bind _ _ = found
      cases found with
      | none => exact .nil
      | some s => exact List.pairwise_singleton _ s
    · exact .nil
  · exact .nil

theorem Split.sites_unique (split : Split wires column) {t : Site} {r : Nat}
    (hs : s ∈ sites p index column) (ht : t ∈ sites p index column) (first : r ∈ s.rows)
    (second : r ∈ t.rows) : s = t := by
  by_contra differ
  have : Std.Symm fun s t : Site => s.rows.Disjoint t.rows := ⟨fun _ _ h => List.Disjoint.symm h⟩
  exact split.pairwise_sites.forall hs ht differ first second

end Column

/-! ## Placeholders for sites -/

theorem Site.mem_rowsAt_placeholder {s : Site} {link : Link} {row r : Nat}
    (rows : s.rows = [s.source, s.target]) :
    r ∈ (s.placeholder link).rowsAt row ↔ r ∈ s.rows := by
  have role : (s.placeholder link).placeholder? =
      some ⟨s.kind, s.source, s.target, link.first, link.second⟩ := rfl
  rw [rows, List.mem_pair, Gate.mem_rowsAt_of_placeholder role]

theorem Site.nodup_rowsAt_placeholder {s : Site} {link : Link} {row : Nat}
    (ne : s.source ≠ s.target) : ((s.placeholder link).rowsAt row).Nodup := by
  rw [Gate.nodup_rowsAt_iff]
  rintro payload ⟨⟩
  exact ne

/-- The link for a site. -/
def Site.link? (links : List Link) (s : Site) : Option Link := links.find? (·.pair = s.pair)

namespace Column

variable {wires : Nat} {column : Column Gate} {s t : Site} {link : Link} {links : List Link}

/-- The column with the cells of a site taken out and its placeholder put in. -/
def putLink (s : Site) (link : Link) (column : Column Gate) : Column Gate :=
  ((column.set s.source none).set s.target none).set s.top (some (s.placeholder link))

/-- The column with placeholders for several sites, which are put in one after the other. -/
def putLinks (links : List Link) (sites : List Site) (column : Column Gate) : Column Gate :=
  sites.foldl (fun column s => match s.link? links with
    | some link => putLink s link column
    | none => column) column

theorem length_putLink : (putLink s link column).length = column.length := by
  simp [putLink]

/-- The slots of a column with the placeholder of a site. -/
theorem getElem?_putLink (owns : s.Owns column) (r : Nat) :
    (putLink s link column)[r]? =
      if r = s.top then some (some (s.placeholder link))
      else if r ∈ s.rows then some none else column[r]? := by
  have source := owns.source_lt
  have target := owns.target_lt
  have top : s.top = s.source ∨ s.top = s.target := by
    unfold Site.top
    omega
  simp only [putLink, List.getElem?_set, List.length_set, owns.rows_eq, List.mem_pair]
  grind

/-- The gates of a column with the placeholder of a site. -/
theorem mem_putLink (owns : s.Owns column) {row : Nat} {g : Gate} :
    (row, g) ∈ placed (putLink s link column) ↔
      (row = s.top ∧ g = s.placeholder link) ∨ (row ∉ s.rows ∧ (row, g) ∈ placed column) := by
  have top : s.top ∈ s.rows := by
    rw [owns.rows_eq, List.mem_pair, Site.top]
    omega
  rw [mem_placed, mem_placed, getElem?_putLink owns]
  split
  · next here =>
    subst here
    simp [top, eq_comm]
  · next elsewhere =>
    split
    · next inside => simp [elsewhere, inside]
    · next outside => simp [elsewhere, outside]

theorem Apart.putLink (apart : Apart wires column) (owns : s.Owns column) :
    Apart wires (putLink s link column) := by
  have covers (row r : Nat) : r ∈ (s.placeholder link).rowsAt row ↔ r ∈ s.rows :=
    Site.mem_rowsAt_placeholder owns.rows_eq
  have top : s.top ∈ s.rows := by
    rw [owns.rows_eq, List.mem_pair, Site.top]
    omega
  refine ⟨⟨?_, ?_, ?_⟩, ?_⟩
  · rw [length_putLink, apart.length_eq]
  · intro row g h
    obtain ⟨rfl, rfl⟩ | ⟨-, placed⟩ := (mem_putLink owns).mp h
    · exact (covers _ _).mpr top
    · exact apart.own_row row g placed
  · intro row g row' g' r h h' inside inside'
    obtain ⟨rfl, rfl⟩ | ⟨outside, placed⟩ := (mem_putLink owns).mp h <;>
      obtain ⟨rfl, rfl⟩ | ⟨outside', placed'⟩ := (mem_putLink owns).mp h'
    · rfl
    · exact absurd (owns.closed row' g' placed' r inside' ((covers _ _).mp inside)) outside'
    · exact absurd (owns.closed row g placed r inside ((covers _ _).mp inside')) outside
    · exact congrArg (·.1) (apart.unique placed placed' inside inside')
  · intro row g h r inside
    obtain ⟨rfl, rfl⟩ | ⟨-, placed⟩ := (mem_putLink owns).mp h
    · rw [covers, owns.rows_eq, List.mem_pair] at inside
      have source := owns.source_lt
      have target := owns.target_lt
      rw [apart.length_eq] at source target
      omega
    · exact apart.in_range row g placed r inside

/-- The sites that are still to be replaced own their rows after the others are. -/
theorem owns_putLink (owns : s.Owns column) (other : t.Owns column)
    (apart : s.rows.Disjoint t.rows) : t.Owns (putLink s link column) := by
  refine ⟨other.rows_eq, other.ne, ?_, ?_, ?_⟩
  · rw [length_putLink]
    exact other.source_lt
  · rw [length_putLink]
    exact other.target_lt
  · intro row g h r covers inside
    obtain ⟨rfl, rfl⟩ | ⟨-, placed⟩ := (mem_putLink owns).mp h
    · exact absurd inside (apart ((Site.mem_rowsAt_placeholder owns.rows_eq).mp covers))
    · exact other.closed row g placed r covers inside

/-! ## Several sites of a column -/

variable {sites : List Site}

theorem putLinks_cons (h : s.link? links = some link) :
    putLinks links (s :: sites) column = putLinks links sites (putLink s link column) := by
  simp [putLinks, h]

theorem Apart.putLinks (apart : Apart wires column) (owned : ∀ s ∈ sites, s.Owns column)
    (disjoint : sites.Pairwise fun s t => s.rows.Disjoint t.rows)
    (linked : ∀ s ∈ sites, ∃ link, s.link? links = some link) :
    Apart wires (putLinks links sites column) := by
  induction sites generalizing column with
  | nil => exact apart
  | cons s rest ih =>
    obtain ⟨first, others⟩ := List.pairwise_cons.mp disjoint
    obtain ⟨link, found⟩ := linked s List.mem_cons_self
    have owns := owned s List.mem_cons_self
    rw [putLinks_cons found]
    refine ih (apart.putLink owns) (fun t h => ?_) others fun t h => linked t (List.mem_cons_of_mem s h)
    exact owns_putLink owns (owned t (List.mem_cons_of_mem s h)) (first t h)

/-- **The gates of a column with placeholders for its sites** are the placeholders, each in the upper
row of its site, and the gates outside the rows of the sites. -/
theorem mem_putLinks (owned : ∀ s ∈ sites, s.Owns column)
    (apart : sites.Pairwise fun s t => s.rows.Disjoint t.rows)
    (linked : ∀ s ∈ sites, ∃ link, s.link? links = some link) {row : Nat} {g : Gate} :
    (row, g) ∈ placed (putLinks links sites column) ↔
      (∃ s ∈ sites, ∃ link, s.link? links = some link ∧ row = s.top ∧ g = s.placeholder link) ∨
        ((∀ s ∈ sites, row ∉ s.rows) ∧ (row, g) ∈ placed column) := by
  induction sites generalizing column with
  | nil => simp [putLinks]
  | cons s rest ih =>
    obtain ⟨first, others⟩ := List.pairwise_cons.mp apart
    obtain ⟨link, found⟩ := linked s List.mem_cons_self
    have owns := owned s List.mem_cons_self
    have top : s.top ∈ s.rows := by
      rw [owns.rows_eq, List.mem_pair, Site.top]
      omega
    rw [putLinks_cons found, ih (fun t h => owns_putLink owns
      (owned t (List.mem_cons_of_mem s h)) (first t h)) others
      fun t h => linked t (List.mem_cons_of_mem s h)]
    simp only [mem_putLink owns, List.mem_cons, exists_eq_or_imp, forall_eq_or_imp, found,
      Option.some.injEq, exists_eq_left']
    constructor
    · rintro (later | ⟨free, here | ⟨outside, placed⟩⟩)
      · exact .inl (.inr later)
      · exact .inl (.inl here)
      · exact .inr ⟨⟨outside, free⟩, placed⟩
    · rintro ((⟨rfl, rfl⟩ | later) | ⟨⟨outside, free⟩, placed⟩)
      · exact .inr ⟨fun t h inside => first t h top inside, .inl ⟨rfl, rfl⟩⟩
      · exact .inl later
      · exact .inr ⟨free, .inr ⟨outside, placed⟩⟩

/-- The second column is the first one with placeholders in place of its sites for a partition. -/
def Replaces (p : Partition) (links : List Link) (index : Nat) (column column' : Column Gate) :
    Prop :=
  ∀ row g, (row, g) ∈ placed column' ↔
    (∃ s ∈ Column.sites p index column, ∃ link, s.link? links = some link ∧ row = s.top ∧
      g = s.placeholder link) ∨
      ((∀ s ∈ Column.sites p index column, row ∉ s.rows) ∧ (row, g) ∈ placed column)

/-- A column on more wires, with the placeholders for its sites. -/
theorem Split.replaces_putLinks {p : Partition} {index : Nat} (split : Split wires column)
    (inside : ∀ s ∈ Column.sites p index column, s.target < wires) (count : Nat)
    (linked : ∀ s ∈ Column.sites p index column, ∃ link, s.link? links = some link) :
    Replaces p links index column (Column.putLinks links (Column.sites p index column)
      (column ++ List.replicate count none)) := by
  intro row g
  rw [Column.mem_putLinks (fun s h => (split.owns h (inside s h)).append_blank count)
    split.pairwise_sites linked, placed_append_blank]

theorem Apart.replaces_putLinks {p : Partition} {index : Nat} (apart : Apart wires column)
    (count : Nat) (linked : ∀ s ∈ Column.sites p index column, ∃ link, s.link? links = some link) :
    Replaces p links index column (Column.putLinks links (Column.sites p index column)
      (column ++ List.replicate count none)) :=
  apart.toSplit.replaces_putLinks (fun _ h => apart.target_lt h) count linked

end Column

end CircuitGrid
