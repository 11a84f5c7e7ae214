import CircuitGrid.Proofs.Description.Patching
import CircuitGrid.Proofs.Description.TextRoundTrip

/-!
# Texts of distributed circuits

A distributed circuit comes back from its text when the circuit did before. The placeholders that are
put in have different ids, but a gate that was there may have one of these, and a text keeps one gate
for an id.

* `Circuit.ComesBack`: the text of a circuit leads back to it;
* **`Circuit.comesBack_distribute_iff`**: when a distributed circuit comes back.
-/

namespace CircuitGrid

/-! ## Words and nesting -/

namespace Json

variable {α : Type} {key : String} {write : α → Json} {d : Nat}

theorem depth_optional_le_iff {o : Option α} :
    (∀ m ∈ Json.optional key write o, m.2.depth ≤ d) ↔ ∀ a, o = some a → (write a).depth ≤ d := by
  cases o <;> simp [Json.optional]

theorem depth_nonempty_le_iff {items : List α} :
    (∀ m ∈ Json.nonempty key write items, m.2.depth ≤ d + 1) ↔
      ∀ a ∈ items, (write a).depth ≤ d := by
  cases items with
  | nil => simp [Json.nonempty]
  | cons a rest =>
    have list : (Json.list ((a :: rest).map write)).depth ≤ d + 1 ↔
        ∀ j ∈ (a :: rest).map write, j.depth ≤ d := depth_list_le_iff
    simpa [Json.nonempty] using list

end Json

theorem Export.depth_toJson_le (e : Export) : e.toJson.depth ≤ 2 := by
  rw [Export.toJson, Json.depth_object_le_iff]
  simp only [List.mem_append, or_imp, forall_and, Json.depth_optional_le_iff,
    Json.depth_nonempty_le_iff]
  simp [Json.depth]

theorem Definition.depth_of_flat {d : Definition} (flat : d.circuit = none) :
    d.toJson.depth ≤ 3 := by
  obtain ⟨id, name, symbol, height, circuit, matrix, exports, nonLocal⟩ := d
  cases flat
  rw [Definition.toJson_eq, Json.depth_object_le_iff]
  simp only [List.mem_append, or_imp, forall_and, Json.depth_optional_le_iff]
  refine ⟨⟨⟨⟨⟨⟨⟨?_, ?_⟩, ?_⟩, ?_⟩, ?_⟩, ?_⟩, ?_⟩, ?_⟩
  · simp [Json.depth]
  · simp [Json.depth]
  · simp [Json.depth]
  · simp [Json.depth]
  · simp
  · rintro entries -
    rw [Json.depth_list_le_iff, List.forall_mem_map]
    exact fun _ _ => Nat.le_refl 1
  · exact fun e _ => e.depth_toJson_le
  · rintro payload -
    simp [Placeholder.toJson, Json.depth, Json.depthOfItems, Json.depthOfMembers]

/-- How deeply a description is nested is decided by its definitions. -/
theorem Sheet.depth_le_iff {columns : List (List Cell)} {gates : List Definition}
    {wires : Option Nat} {d : Nat} :
    (Sheet.toJson ⟨columns, gates, wires⟩).depth ≤ d + 3 ↔ ∀ g ∈ gates, g.toJson.depth ≤ d + 1 := by
  rw [Sheet.toJson_eq, Json.depth_object_le_iff]
  simp only [List.mem_append, or_imp, forall_and, Json.depth_optional_le_iff,
    Json.depth_nonempty_le_iff, List.forall_mem_singleton]
  have cols : (Json.list (columns.map fun cells => .list (cells.map Cell.toJson))).depth ≤ d + 2 := by
    rw [Json.depth_list_le_iff, List.forall_mem_map]
    intro cells _
    rw [Json.depth_list_le_iff, List.forall_mem_map]
    intro cell _
    cases cell <;> exact Nat.zero_le _
  have wire : ∀ n, wires = some n → (Json.nat n).depth ≤ d + 2 := fun _ _ => Nat.zero_le _
  exact ⟨fun h => h.1.2, fun h => ⟨⟨cols, h⟩, wire⟩⟩

theorem Sheet.fits_iff {columns : List (List Cell)} {gates : List Definition} {wires : Nat} :
    Sheet.fits ⟨columns, gates, some wires⟩ ↔ (∀ g ∈ gates, g.fits) ∧ wires < 2 ^ 64 := by
  rw [Sheet.fits, Bool.and_eq_true, Definition.allFit_eq_true]
  simp

theorem Gate.fits_of_same {g h : Gate} (same : g.Same h) (flat : g.body? = none) {d e : Definition}
    (encoded : g.encode = .ok d) (encoded' : h.encode = .ok e) : d.fits = e.fits := by
  obtain ⟨id, title, role, height, exports, matrix, entangler, inert, pos⟩ := g
  obtain ⟨id', title', role', height', exports', matrix', entangler', inert', pos'⟩ := h
  obtain ⟨-, -, roles, height_eq, exports_eq, matrix_eq, -, -⟩ := same
  cases height_eq
  cases roles with
  | nested => cases flat
  | nonLocal payload =>
    cases encoded
    cases encoded'
    rfl
  | unitary =>
    cases matrix <;> cases matrix' <;> cases exports <;> cases exports' <;> cases encoded <;>
      cases encoded' <;> first | rfl | cases matrix_eq
  | _ => cases encoded

/-! ## Links -/

/-- The last wire of the links is the last wire of the circuit. -/
theorem Circuit.exists_last_link {wire : Nat} {pairs : List BlockPair} (some : pairs ≠ []) :
    ∃ link ∈ Circuit.linksFrom wire pairs, link.second + 1 = wire + pairs.length * 2 := by
  have bound := List.length_pos_iff.mpr some
  have last : ∃ link ∈ linksFrom wire pairs,
      wire + pairs.length * 2 - 1 ∈ [link.first, link.second] :=
    exists_mem_linksFrom.mpr ⟨by omega, by omega⟩
  obtain ⟨link, inside, own⟩ := last
  obtain ⟨-, -, next, high⟩ := mem_linksFrom inside
  rw [List.mem_pair] at own
  exact ⟨link, inside, by omega⟩

/-! ## Gates of linked circuits -/

namespace Circuit

variable {c : Circuit} {p : Partition} {g : Gate}

theorem isBuiltIn_placeholder (s : Site) (link : Link) : isBuiltIn (s.placeholder link) = false := by
  rw [isBuiltIn, s.find?_id_placeholder link]
  rfl

theorem definable_placeholder (s : Site) (link : Link) : (s.placeholder link).Definable :=
  .nonLocal (show some s.kind.matrix == some s.kind.matrix by cases s.kind <;> decide +kernel)

theorem readsBack_placeholder (s : Site) (link : Link) :
    ∀ x ∈ (s.placeholder link).numbers, ReadsBack x := by
  show ∀ x ∈ s.kind.matrix.components, ReadsBack x
  cases s.kind <;> decide +kernel

/-- Linking brings in no doubles but these. -/
theorem readsBack_linked (apart : ∀ column ∈ c.columns, Column.Apart c.wires column)
    (numbers : ∀ g, c.Holds g → ∀ x ∈ g.numbers, ReadsBack x) :
    ∀ g, (c.linked p).Holds g → ∀ x ∈ g.numbers, ReadsBack x := by
  intro g held
  obtain ⟨s, link, rfl⟩ | before := holds_linked (.of_apart apart) held
  · exact readsBack_placeholder s link
  · exact numbers g before

/-! ## Coming back -/

/-- The text of a circuit leads back to it. -/
def ComesBack (c : Circuit) : Prop :=
  ∃ text, c.toText = .ok text ∧ ∃ c', ofText text = .ok c' ∧ c' == c

theorem comesBack_iff_decode (numbers : ∀ g, c.Holds g → ∀ x ∈ g.numbers, ReadsBack x) :
    c.ComesBack ↔ ∃ d, c.encode = .ok d ∧ (d.toJson.depth ≤ maxDepth ∧ d.fits) ∧
      ∃ c', Description.decode d = .ok c' ∧ c' == c := by
  constructor
  · rintro ⟨text, written, c', read, same⟩
    rw [toText] at written
    cases encoded : c.encode with
    | error fault =>
      rw [encoded] at written
      cases written
    | ok d =>
      rw [encoded] at written
      cases written
      obtain ⟨fits, decoded⟩ := (ofText_compact numbers encoded).mp read
      exact ⟨d, rfl, fits, c', decoded, same⟩
  · rintro ⟨d, encoded, fits, c', decoded, same⟩
    refine ⟨d.toJson.compact, by rw [toText, encoded]; rfl, c', ?_, same⟩
    exact (ofText_compact numbers encoded).mpr ⟨fits, decoded⟩

/-- What it takes to come back: a description that is not nested too deeply, whose numbers fit into
their words, and in which no built-in gate is hidden. -/
theorem comesBack_iff (numbers : ∀ g, c.Holds g → ∀ x ∈ g.numbers, ReadsBack x) : c.ComesBack ↔
    c.Describable ∧ c.Sized ∧
      ∃ d, c.encode = .ok d ∧ (d.toJson.depth ≤ maxDepth ∧ d.fits) ∧ d.avoids [] := by
  rw [comesBack_iff_decode numbers]
  constructor
  · rintro ⟨d, encoded, fits, c', decoded, same⟩
    obtain ⟨describable, sized⟩ :=
      Accepted.describable_of_beq (Sheet.accepted_of_decode .nil decoded) same
    obtain ⟨d', encoded', iff⟩ := describable.decode_encode_iff
    cases encoded.symm.trans encoded'
    exact ⟨describable, sized, d, encoded, fits, ((iff [] .nil).mp ⟨c', decoded, same⟩).2⟩
  · rintro ⟨describable, sized, d, encoded, fits, avoids⟩
    obtain ⟨d', encoded', iff⟩ := describable.decode_encode_iff
    cases encoded.symm.trans encoded'
    exact ⟨d, encoded, fits, (iff [] .nil).mpr ⟨sized, avoids⟩⟩

/-- Whether the description of a circuit leads back to it. -/
def comesBack (c : Circuit) : Bool :=
  match c.encode with
  | .error _ => false
  | .ok d => decide (d.toJson.depth ≤ maxDepth ∧ d.fits) && match Description.decode d with
    | .error _ => false
    | .ok c' => c' == c

theorem comesBack_eq_true (numbers : ∀ g, c.Holds g → ∀ x ∈ g.numbers, ReadsBack x) :
    c.comesBack ↔ c.ComesBack := by
  rw [comesBack_iff_decode numbers, comesBack]
  cases c.encode with
  | error fault => simp
  | ok d =>
    cases decoded : Description.decode d with
    | error fault => simp [decoded]
    | ok c' => simp [decoded]

/-! ## Linked circuits that come back -/

/-- A gate that stays has the id of the placeholder for a site only if it equals that placeholder. -/
def KeepsIds (c c' : Circuit) (r : Report) : Prop :=
  ∀ s ∈ r.sites, ∀ link, s.link? r.links = some link →
    ∀ g, c.At g → c'.At g → g.id = (s.placeholder link).id → g == s.placeholder link

theorem KeepsIds.of_starts {c' : Circuit} {r : Report}
    (starts : ∀ g, c.At g → g.id.toList.head? ≠ some '~') : KeepsIds c c' r := by
  intro s _ link _ g inside _ same
  exact absurd (same ▸ s.head?_id_placeholder link) (starts g inside)

theorem placeholder_unique (apart : ∀ column ∈ c.columns, Column.Apart c.wires column) {s t : Site}
    (isSite : s ∈ c.sites p) (isSite' : t ∈ c.sites p) {link link' : Link}
    (same : (s.placeholder link).id = (t.placeholder link').id) : s = t := by
  obtain ⟨-, column, top⟩ := Site.eq_of_id_placeholder same
  obtain ⟨slots, found, inSlots⟩ := mem_sites.mp isSite
  obtain ⟨slots', found', inSlots'⟩ := mem_sites.mp isSite'
  rw [← column] at found' inSlots'
  cases found.symm.trans found'
  have apart := apart slots (List.mem_of_getElem? found)
  have inside {s : Site} (owns : s.Owns slots) : s.top ∈ s.rows := by
    rw [owns.rows_eq, List.mem_pair, Site.top]
    omega
  exact apart.sites_unique inSlots inSlots' (inside (apart.owns inSlots))
    (top ▸ inside (apart.owns inSlots'))

/-- A linked circuit has a description as long as ids stand for one gate each. -/
theorem Describable.linked_iff (h : c.Describable) :
    (c.linked p).Describable ↔ KeepsIds c (c.linked p) (c.linkReport p) := by
  obtain ⟨valid, ids, gates, bodies⟩ := h
  have apart := (validate_eq_ok.mp valid).1
  constructor
  · rintro ⟨-, ids', -, -⟩ s isSite link isLink g - inside same
    exact ids' g _ inside (at_linked_of_site (.of_apart apart) isSite isLink) same
  · intro keeps
    have equal : ∀ s ∈ c.sites p, ∀ link, s.link? (c.linksFor p) = some link → ∀ g,
        (c.linked p).At g → g.id = (s.placeholder link).id → g == s.placeholder link := by
      intro s isSite link isLink g inside same
      obtain ⟨t, isSite', link', isLink', rfl⟩ | before := at_linked (.of_apart apart) inside
      · cases placeholder_unique apart isSite' isSite same
        cases isLink.symm.trans isLink'
        exact Gate.beq_iff.mpr (.refl (fun x inside => (readsBack_placeholder s link x inside).beq_self)
          nofun)
      · exact keeps s isSite link isLink g before inside same
    refine .intro (validate_linked valid) (fun g h inside inside' same => ?_)
      (fun g inside own => ?_) fun g body inside nested => ?_
    · obtain ⟨s, isSite, link, isLink, rfl⟩ | before := at_linked (.of_apart apart) inside'
      · exact equal s isSite link isLink g inside same
      · obtain ⟨s, isSite, link, isLink, rfl⟩ | before' := at_linked (.of_apart apart) inside
        · have back := Gate.beq_iff.mp (equal s isSite link isLink h inside' same.symm)
          exact Gate.beq_iff.mpr back.symm
        · exact ids g h before' before same
    · obtain ⟨s, isSite, link, isLink, rfl⟩ | before := at_linked (.of_apart apart) inside
      · exact definable_placeholder s link
      · exact gates g before own
    · obtain ⟨s, isSite, link, isLink, rfl⟩ | before := at_linked (.of_apart apart) inside
      · cases nested
      · exact bodies g body before nested

theorem Sized.linked (apart : ∀ column ∈ c.columns, Column.Apart c.wires column) (sized : c.Sized) :
    (c.linked p).Sized := by
  intro g held own
  obtain ⟨s, link, rfl⟩ | before := holds_linked (.of_apart apart) held
  · exact fun unitary => nomatch unitary
  · exact sized g before own

/-- The definitions for a linked circuit that are not among those for the circuit itself have no
circuit. -/
theorem Describable.mem_of_linked (h : c.Describable) {ds ds' : List Definition}
    (definitions : List.Forall₂ (fun g d => g.encode = .ok d) c.customs ds)
    (definitions' : List.Forall₂ (fun g d => g.encode = .ok d) (c.linked p).customs ds')
    {e : Definition} (inside : e ∈ ds') : e ∈ ds ∨ e.circuit = none ∧
      ∃ g, (c.linked p).At g ∧ isBuiltIn g = false ∧ g.body? = none ∧ g.encode = .ok e := by
  obtain ⟨g, custom, encoded⟩ := exists_left_of_mem definitions' inside
  obtain ⟨here, own⟩ := of_mem_customs custom
  by_cases flat : g.body? = none
  · right
    refine ⟨?_, g, here, own, flat, encoded⟩
    by_contra nested
    obtain ⟨description, found⟩ := Option.ne_none_iff_exists'.mp nested
    obtain ⟨body, inGate, -⟩ := (Gate.circuit_of_encode encoded).mp found
    rw [flat] at inGate
    cases inGate
  · left
    obtain ⟨e', found, encoded'⟩ :=
      exists_right_of_mem definitions (h.mem_customs_of_linked custom flat)
    cases encoded.symm.trans encoded'
    exact found

/-- Links within their words leave the number of wires within its word. -/
theorem wires_linked_lt (wires : c.wires < 2 ^ 64)
    (narrow : ∀ link ∈ c.linksFor p, link.second < wireLimit) : (c.linked p).wires < 2 ^ 64 := by
  by_cases links : BlockPair.ordered ((c.sites p).map (·.pair)) = []
  · simpa [linked, linksFor, links, linksFrom] using wires
  · obtain ⟨link, isLink, last⟩ := @exists_last_link c.wires _ links
    have narrow := narrow link isLink
    have words : wireLimit < 2 ^ 64 := by decide
    have wires' : (c.linked p).wires = link.second + 1 := by
      rw [last, linked, linksFor, length_linksFrom]
    omega

theorem fits_placeholder {s : Site} {link : Link} {e : Definition}
    (encoded : (s.placeholder link).encode = .ok e) : e.fits ↔
      s.source < wireLimit ∧ s.target < wireLimit ∧ link.first < wireLimit ∧
        link.second < wireLimit := by
  cases encoded
  simp [Definition.fits_eq, Placeholder.fits, and_assoc]

/-- Wires of a site lie before those of its link, which are therefore all that matters. -/
theorem fits_of_site (apart : ∀ column ∈ c.columns, Column.Apart c.wires column) {s : Site}
    (isSite : s ∈ c.sites p) {link : Link} (isLink : s.link? (c.linksFor p) = some link)
    (narrow : link.second < wireLimit) {e : Definition}
    (encoded : (s.placeholder link).encode = .ok e) : e.fits := by
  obtain ⟨-, low, next, -⟩ := mem_linksFrom (List.mem_of_find?_eq_some isLink)
  have ends := ends_lt apart isSite
  exact (fits_placeholder encoded).mpr (by omega)

/-- The numbers of the definitions for a linked circuit fit when the wires of its links do. -/
theorem Describable.fits_linked (h : c.Describable) {ds ds' : List Definition}
    (definitions : List.Forall₂ (fun g d => g.encode = .ok d) c.customs ds)
    (definitions' : List.Forall₂ (fun g d => g.encode = .ok d) (c.linked p).customs ds')
    (fits : ∀ e ∈ ds, e.fits) (narrow : ∀ link ∈ c.linksFor p, link.second < wireLimit) :
    ∀ e ∈ ds', e.fits := by
  obtain ⟨valid, ids, -, -⟩ := id h
  have apart := (validate_eq_ok.mp valid).1
  intro e inside
  obtain old | ⟨-, g, here, own, flat, encoded⟩ := h.mem_of_linked definitions definitions' inside
  · exact fits e old
  obtain ⟨s, isSite, link, isLink, rfl⟩ | before := at_linked (.of_apart apart) here
  · exact fits_of_site apart isSite isLink (narrow link (List.mem_of_find?_eq_some isLink)) encoded
  · obtain ⟨first, custom, same⟩ := exists_customs before own
    obtain ⟨e', defined, encoded'⟩ := exists_right_of_mem definitions custom
    have equal := Gate.beq_iff.mp (ids g first before (of_mem_customs custom).1 same.symm)
    rw [Gate.fits_of_same equal flat encoded encoded']
    exact fits e' defined

/-- **When a distributed circuit comes back.** A circuit that comes back from its text still does when
it is distributed, as long as the wires of its links fit into their words and no gate that stays has
the id of one of the placeholders that are put in. -/
theorem comesBack_distribute_iff {requested : Nat} {d : Distribution}
    (numbers : ∀ g, c.Holds g → ∀ x ∈ g.numbers, ReadsBack x) (back : c.ComesBack)
    (h : c.distribute requested = .ok d) :
    d.circuit.ComesBack ↔
      (∀ link ∈ d.report.links, link.second < wireLimit) ∧ KeepsIds c d.circuit d.report := by
  obtain ⟨describable, sized, description, encoded, ⟨depth, fits⟩, avoids⟩ :=
    (comesBack_iff numbers).mp back
  obtain ⟨valid, ids, -, -⟩ := id describable
  have apart := (validate_eq_ok.mp valid).1
  obtain ⟨-, linked, -⟩ := distribute_eq_ok.mp h
  rw [(Linkable.of_apart apart).link_eq, Except.ok.injEq, Prod.mk.injEq] at linked
  obtain ⟨isLinked, isReport⟩ := linked
  rw [← isLinked, ← isReport]
  generalize d.partition = p
  rw [comesBack_iff (readsBack_linked apart numbers), describable.linked_iff]
  constructor
  · rintro ⟨keeps, -, description', encoded', ⟨-, fits'⟩, -⟩
    refine ⟨fun link isLink => ?_, keeps⟩
    obtain ⟨ds', definitions, rfl⟩ := Circuit.encode_eq_ok.mp encoded'
    obtain ⟨-, ids', -, -⟩ := describable.linked_iff.mpr keeps
    obtain ⟨s, isSite, found⟩ := exists_site isLink
    have here := at_linked_of_site (.of_apart apart) isSite found
    obtain ⟨first, custom, same⟩ := exists_customs here (isBuiltIn_placeholder s link)
    obtain ⟨e, defined, written⟩ := exists_right_of_mem definitions custom
    have equal := Gate.beq_iff.mp (ids' _ first here (of_mem_customs custom).1 same.symm)
    have fit := (Sheet.fits_iff.mp fits').1 e defined
    rw [← Gate.fits_of_same equal rfl rfl written] at fit
    exact ((fits_placeholder rfl).mp fit).2.2.2
  · rintro ⟨narrow, keeps⟩
    have describable' := describable.linked_iff.mpr keeps
    obtain ⟨description', encoded', -⟩ := describable'.decode_encode_iff
    obtain ⟨ds, definitions, rfl⟩ := Circuit.encode_eq_ok.mp encoded
    obtain ⟨ds', definitions', rfl⟩ := Circuit.encode_eq_ok.mp encoded'
    obtain ⟨fits, wires⟩ := Sheet.fits_iff.mp fits
    refine ⟨keeps, sized.linked apart, _, encoded', ⟨?_, ?_⟩,
      describable.avoids_linked describable' encoded encoded' avoids⟩
    · refine Sheet.depth_le_iff.mpr fun e inside => ?_
      obtain old | ⟨flat, -⟩ := describable.mem_of_linked definitions definitions' inside
      · exact Sheet.depth_le_iff.mp depth e old
      · exact (Definition.depth_of_flat flat).trans (by decide)
    · exact Sheet.fits_iff.mpr ⟨describable.fits_linked definitions definitions' fits narrow,
        wires_linked_lt wires narrow⟩

/-- Two sites beside a gate with a circuit. -/
theorem comesBack_distribute_two_sites :
    let inner : Circuit := ⟨1, [[Catalog.find? "X"]]⟩
    let c : Circuit := ⟨4, [[none, Catalog.find? "CNOT", none, none],
      [Catalog.find? "•", none, none, Catalog.find? "X"],
      [some (.nested "n" "n" inner), none, none, none]]⟩
    c.ComesBack ∧ ∃ d, c.distribute 2 = .ok d ∧ d.report.sites.length = 2 ∧ d.circuit.ComesBack := by
  intro inner c
  have numbers := readsBack_iff.mp (show c.readsBack by decide +kernel)
  have back : c.ComesBack := (comesBack_eq_true numbers).mp (by decide +kernel)
  have starts : c.columns.flatten.all fun cell =>
      cell.all fun g => g.id.toList.head? != some '~' := by decide +kernel
  have checked : (c.distribute 2).toOption.any fun d => d.report.sites.length = 2 ∧
      ∀ link ∈ d.report.links, link.second < wireLimit := by decide +kernel
  cases distributed : c.distribute 2 with
  | error fault =>
    rw [distributed] at checked
    cases checked
  | ok d =>
    rw [distributed] at checked
    obtain ⟨two, narrow⟩ := of_decide_eq_true checked
    refine ⟨back, d, rfl, two, (comesBack_distribute_iff numbers back distributed).mpr
      ⟨narrow, .of_starts fun g inside => ?_⟩⟩
    have start := List.all_eq_true.mp starts (some g) (at_iff_mem_flatten.mp inside)
    simpa using start

/-- **A distributed circuit that does not come back**: a gate has the id of the placeholder that comes
to stand before it. -/
theorem not_comesBack_distribute_same_id :
    ¬ ∀ (c : Circuit) (requested : Nat) (d : Distribution),
      (∀ g, c.Holds g → ∀ x ∈ g.numbers, ReadsBack x) → c.ComesBack →
        c.distribute requested = .ok d → d.circuit.ComesBack := by
  intro all
  let own : Gate := { Gate.basic "~nlcx_0_1" "~nlcx_0_1" with exports := some ⟨.x, none, [], []⟩ }
  let c : Circuit := ⟨4, [[none, Catalog.find? "CNOT", none, none], [none, some own, none, none]]⟩
  have numbers := readsBack_iff.mp (show c.readsBack by decide +kernel)
  have back : c.ComesBack := (comesBack_eq_true numbers).mp (by decide +kernel)
  have checked : (c.distribute 2).toOption.any fun d =>
      d.circuit.readsBack && !d.circuit.comesBack := by decide +kernel
  cases distributed : c.distribute 2 with
  | error fault =>
    rw [distributed] at checked
    cases checked
  | ok d =>
    rw [distributed] at checked
    obtain ⟨numbers', lost⟩ := Bool.and_eq_true_iff.mp checked
    have comes := (comesBack_eq_true (readsBack_iff.mp numbers')).mpr
      (all c 2 d numbers back distributed)
    rw [comes] at lost
    cases lost

end Circuit

end CircuitGrid
