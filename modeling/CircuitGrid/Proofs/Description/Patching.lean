import CircuitGrid.Proofs.Description.TextRoundTrip
import CircuitGrid.Proofs.Redistribution

/-!
# Cells that are replaced

Linking a circuit empties and replaces cells, none of which holds a circuit. The gates with circuits
are therefore still defined, in the same order, and the ids that are defined before them were defined
before them already or are those of placeholders, which no built-in gate has.

* `Patched`: cells that are emptied or replaced;
* **`Patched.follows_newGates`**: gates with circuits are still defined where they were;
* **`Site.eq_of_id_placeholder`**: placeholders for different sites have different ids;
* **`Circuit.patched_linked`**: linking a circuit empties and replaces cells without circuits;
* **`Circuit.Describable.avoids_linked`**: linking a circuit hides no further built-in gate.
-/

namespace CircuitGrid

/-! ## Cells that are replaced -/

/-- Cells some of which are emptied or replaced, and blank ones put in between. What goes holds no
circuit, and what comes holds none and is not known by the id of a built-in gate. -/
inductive Patched : List (Option Gate) → List (Option Gate) → Prop
  | nil : Patched [] []
  | keep {cells cells' : List (Option Gate)} (cell : Option Gate) :
      Patched cells cells' → Patched (cell :: cells) (cell :: cells')
  | empty {cells cells' : List (Option Gate)} {g : Gate} :
      g.body? = none → Patched cells cells' → Patched (some g :: cells) (none :: cells')
  | replace {cells cells' : List (Option Gate)} {g h : Gate} :
      g.body? = none → h.body? = none → Catalog.find? h.id = none → Patched cells cells' →
        Patched (some g :: cells) (some h :: cells')
  | blank {cells cells' : List (Option Gate)} :
      Patched cells cells' → Patched cells (none :: cells')

namespace Patched

variable {cells cells' others others' : List (Option Gate)} {g h : Gate}

theorem append (first : Patched cells cells') (rest : Patched others others') :
    Patched (cells ++ others) (cells' ++ others') := by
  induction first with
  | nil => exact rest
  | keep cell _ ih => exact .keep cell ih
  | empty flat _ ih => exact .empty flat ih
  | replace flat flat' foreign _ ih => exact .replace flat flat' foreign ih
  | blank _ ih => exact .blank ih

theorem flatten {columns columns' : List (Column Gate)}
    (each : List.Forall₂ Patched columns columns') : Patched columns.flatten columns'.flatten := by
  induction each with
  | nil => exact .nil
  | cons first _ ih => exact first.append ih

/-- The gate is one of a list, and those of another list have ids that are seen, that come before it
in the first list, or that are not built in. -/
def Follows (seen : List String) (gates : List Gate) (before : List Gate) (h : Gate) : Prop :=
  ∃ before₀ after₀, gates = before₀ ++ h :: after₀ ∧
    ∀ g ∈ before, g.id ∈ seen ∨ g.id ∈ before₀.map (·.id) ∨ Catalog.find? g.id = none

/-- A further gate at the front is seen by all that follow. -/
theorem Follows.cons {seen : List String} {gates before : List Gate}
    (follows : Follows (seen ++ [g.id]) gates before h) : Follows seen (g :: gates) before h := by
  obtain ⟨before₀, after₀, split, each⟩ := follows
  refine ⟨g :: before₀, after₀, by rw [split, List.cons_append], fun g' inside => ?_⟩
  rcases each g' inside with old | earlier | foreign
  · rcases List.mem_append.mp old with old | here
    · exact .inl old
    · rw [List.mem_singleton.mp here]
      exact .inr (.inl List.mem_cons_self)
  · exact .inr (.inl (List.mem_cons_of_mem _ earlier))
  · exact .inr (.inr foreign)

theorem Follows.before {seen : List String} {gates before : List Gate}
    (follows : Follows seen gates before h) (old : g.id ∈ seen ∨ Catalog.find? g.id = none) :
    Follows seen gates (g :: before) h := by
  obtain ⟨before₀, after₀, split, each⟩ := follows
  refine ⟨before₀, after₀, split, List.forall_mem_cons.mpr ⟨?_, each⟩⟩
  exact old.imp_right .inr

theorem newGates_of_old {seen : List String} (old : isBuiltIn g ∨ g.id ∈ seen) :
    newGates seen (some g :: cells) = newGates seen cells := by
  rw [newGates, if_pos (by simpa using old)]

theorem newGates_of_new {seen : List String} (own : isBuiltIn g = false) (unseen : g.id ∉ seen) :
    newGates seen (some g :: cells) = g :: newGates (seen ++ [g.id]) cells := by
  rw [newGates, if_neg (by simp [own, unseen])]

/-- Whether the first gate is defined or not, it may be taken as seen. -/
theorem follows_of_some {seen : List String} {before : List Gate}
    (follows : ∀ seen₁, (∀ id ∈ seen₁, id ∈ seen ∨ id = g.id) →
      Follows seen₁ (newGates seen₁ cells) before h) :
    Follows seen (newGates seen (some g :: cells)) before h := by
  by_cases old : isBuiltIn g ∨ g.id ∈ seen
  · rw [newGates_of_old old]
    exact follows seen fun id inside => .inl inside
  · rw [not_or, Bool.not_eq_true] at old
    rw [newGates_of_new old.1 old.2]
    exact (follows (seen ++ [g.id]) (by simp)).cons

/-- **A gate with a circuit is still defined**, and behind no other built-in ids than before. -/
theorem follows_newGates (patched : Patched cells cells') {seen seen' : List String}
    (ids : ∀ g h, some g ∈ cells → some h ∈ cells → g.id = h.id →
      g.body? = none → h.body? = none)
    (known : ∀ h, some h ∈ cells → h.body? ≠ none → h.id ∈ seen → h.id ∈ seen')
    {before after : List Gate} (split : newGates seen' cells' = before ++ h :: after)
    (nested : h.body? ≠ none) : Follows seen (newGates seen cells) before h := by
  induction patched generalizing seen seen' before with
  | nil => simp [newGates] at split
  | blank _ ih => exact ih ids known split
  | @keep cells cells' cell _ ih =>
    have ids' := fun g h inside inside' =>
      ids g h (List.mem_cons_of_mem _ inside) (List.mem_cons_of_mem _ inside')
    have known' := fun h inside => known h (List.mem_cons_of_mem _ inside)
    cases cell with
    | none => exact ih ids' known' split
    | some g =>
      by_cases builtIn : isBuiltIn g
      · rw [newGates_of_old (.inl builtIn)] at split ⊢
        exact ih ids' known' split
      have own : isBuiltIn g = false := by simpa using builtIn
      by_cases old' : g.id ∈ seen'
      · rw [newGates_of_old (.inr old')] at split
        refine follows_of_some fun seen₁ which => ih ids' (fun k inside nested' old => ?_) split
        rcases which k.id old with old | same
        · exact known' k inside nested' old
        · rwa [same]
      rw [newGates_of_new own old'] at split
      rcases List.cons_eq_append_iff.mp split with ⟨rfl, first⟩ | ⟨rest, rfl, others⟩
      · cases first
        have unseen : h.id ∉ seen := fun old => old' (known h List.mem_cons_self nested old)
        rw [newGates_of_new own unseen]
        exact ⟨[], _, rfl, fun _ inside => absurd inside List.not_mem_nil⟩
      by_cases old : g.id ∈ seen
      · rw [newGates_of_old (.inr old)]
        refine (ih ids' (fun k inside nested' old => ?_) others).before (.inl old)
        exact List.mem_append_left _ (known' k inside nested' old)
      · rw [newGates_of_new own old]
        refine .cons (.before (ih ids' (fun k inside nested' old => ?_) others) (.inl (by simp)))
        exact (List.mem_append.mp old).elim
          (fun old => List.mem_append_left _ (known' k inside nested' old))
          (fun same => List.mem_append_right _ same)
  | @empty cells cells' g flat _ ih =>
    have ids' := fun g h inside inside' =>
      ids g h (List.mem_cons_of_mem _ inside) (List.mem_cons_of_mem _ inside')
    refine follows_of_some fun seen₁ which => ih ids' (fun k inside nested' old => ?_) split
    rcases which k.id old with old | same
    · exact known k (List.mem_cons_of_mem _ inside) nested' old
    · exact absurd (ids g k List.mem_cons_self (List.mem_cons_of_mem _ inside) same.symm flat) nested'
  | @replace cells cells' g h' flat flat' foreign _ ih =>
    have ids' := fun g h inside inside' =>
      ids g h (List.mem_cons_of_mem _ inside) (List.mem_cons_of_mem _ inside')
    have known₁ {seen₁ : List String} (which : ∀ id ∈ seen₁, id ∈ seen ∨ id = g.id) :
        ∀ k, some k ∈ cells → k.body? ≠ none → k.id ∈ seen₁ → k.id ∈ seen' := by
      intro k inside nested' old
      rcases which k.id old with old | same
      · exact known k (List.mem_cons_of_mem _ inside) nested' old
      · exact absurd (ids g k List.mem_cons_self (List.mem_cons_of_mem _ inside) same.symm flat)
          nested'
    refine follows_of_some fun seen₁ which => ?_
    by_cases old' : isBuiltIn h' ∨ h'.id ∈ seen'
    · rw [newGates_of_old old'] at split
      exact ih ids' (known₁ which) split
    rw [not_or, Bool.not_eq_true] at old'
    rw [newGates_of_new old'.1 old'.2] at split
    rcases List.cons_eq_append_iff.mp split with ⟨rfl, first⟩ | ⟨rest, rfl, others⟩
    · cases first
      exact absurd flat' nested
    · refine .before (ih ids' (fun k inside nested' old => ?_) others) (.inr foreign)
      exact List.mem_append_left _ (known₁ which k inside nested' old)

end Patched

/-! ## Slot by slot -/

/-- What a slot of the first cells becomes in the second ones; beyond the first ones there are only
blank slots. -/
inductive SlotPatched : Option (Option Gate) → Option (Option Gate) → Prop
  | keep (slot : Option (Option Gate)) : SlotPatched slot slot
  | empty {g : Gate} : g.body? = none → SlotPatched (some (some g)) (some none)
  | replace {g h : Gate} : g.body? = none → h.body? = none → Catalog.find? h.id = none →
      SlotPatched (some (some g)) (some (some h))
  | blank : SlotPatched none (some none)

theorem Patched.of_slots {cells cells' : List (Option Gate)}
    (slots : ∀ r : Nat, SlotPatched cells[r]? cells'[r]?) : Patched cells cells' := by
  induction cells' generalizing cells with
  | nil =>
    have first := slots 0
    cases cells with
    | nil => exact .nil
    | cons cell rest => nomatch first
  | cons cell' rest' ih =>
    cases cells with
    | nil =>
      have first := slots 0
      rw [List.getElem?_nil, List.getElem?_cons_zero] at first
      cases first
      exact .blank (ih fun r => slots (r + 1))
    | cons cell rest =>
      have first := slots 0
      have others : Patched rest rest' := ih fun r => slots (r + 1)
      rw [List.getElem?_cons_zero, List.getElem?_cons_zero] at first
      cases first with
      | keep => exact .keep _ others
      | empty flat => exact .empty flat others
      | replace flat flat' foreign => exact .replace flat flat' foreign others

/-! ## Placeholders for sites -/

theorem Site.id_placeholder (s : Site) (link : Link) : (s.placeholder link).id.toList =
    s.kind.idStart.toList ++ (Nat.toDigits 10 s.column ++ '_' :: Nat.toDigits 10 s.top) := by
  show (s!"{s.kind.idStart}{s.column}_{s.top}").toList = _
  simp [toString, Nat.repr, String.toList_append]

/-- **Sites whose placeholders have one id** are of one kind and stand in one place. -/
theorem Site.eq_of_id_placeholder {s t : Site} {link link' : Link}
    (same : (s.placeholder link).id = (t.placeholder link').id) :
    s.kind = t.kind ∧ s.column = t.column ∧ s.top = t.top := by
  have number {m n : Nat} (same : Nat.toDigits 10 m = Nat.toDigits 10 n) : m = n := by
    simpa using congrArg (Nat.ofDigitChars 10 · 0) same
  -- The digits of the column end at the underscore.
  have split (m n : Nat) :
      (Nat.toDigits 10 m ++ '_' :: Nat.toDigits 10 n).takeWhile Char.isDigit = Nat.toDigits 10 m ∧
      (Nat.toDigits 10 m ++ '_' :: Nat.toDigits 10 n).dropWhile Char.isDigit =
        '_' :: Nat.toDigits 10 n := by
    have all : ∀ c ∈ Nat.toDigits 10 m, c.isDigit := fun c =>
      Nat.isDigit_of_mem_toDigits (by omega) (by omega)
    rw [List.takeWhile_append_of_pos all, List.dropWhile_append_of_pos all]
    simp
  have texts := congrArg String.toList same
  rw [id_placeholder, id_placeholder] at texts
  obtain ⟨starts, rest⟩ := List.append_inj texts (by
    cases s.kind <;> cases t.kind <;> simp [Entangler.idStart])
  have columns := congrArg (List.takeWhile Char.isDigit) rest
  have tops := congrArg (List.dropWhile Char.isDigit) rest
  rw [(split _ _).1, (split _ _).1] at columns
  rw [(split _ _).2, (split _ _).2] at tops
  refine ⟨?_, number columns, number (List.cons.inj tops).2⟩
  generalize s.kind = kind at starts
  generalize t.kind = kind' at starts
  cases kind <;> cases kind' <;> simp [Entangler.idStart] at starts ⊢

theorem Site.head?_id_placeholder (s : Site) (link : Link) :
    (s.placeholder link).id.toList.head? = some '~' := by
  rw [id_placeholder]
  cases s.kind <;> simp [Entangler.idStart]

theorem Site.find?_id_placeholder (s : Site) (link : Link) :
    Catalog.find? (s.placeholder link).id = none := by
  have known : Catalog.gates.all fun g => g.id.toList.head? != some '~' := by decide +kernel
  refine List.find?_eq_none.mpr fun g inside same => ?_
  have other := List.all_eq_true.mp known g inside
  rw [beq_iff_eq] at same
  rw [same, head?_id_placeholder] at other
  cases other

example : (Site.placeholder ⟨2, .cz, 3, 0, ⟨0, 1⟩, [0, 3]⟩ ⟨⟨0, 1⟩, 4, 5⟩).id = "~nlcz_2_0" := by
  decide +kernel

namespace Column

variable {p : Partition} {index wires : Nat} {column : Column Gate} {s : Site}

theorem exists_placed_top (h : s ∈ sites p index column) :
    ∃ g, (s.top, g) ∈ placed column := by
  obtain ⟨-, -, -, ⟨g, tall⟩ | ⟨control, payload, under⟩⟩ := mem_sites.mp h
  · refine ⟨g, ?_⟩
    have top : s.top = s.source := by
      rw [Site.top, tall.target]
      omega
    rw [top]
    exact tall.placed
  · obtain top | top : s.top = s.source ∨ s.top = s.target := by
      unfold Site.top
      omega
    · exact ⟨control, top ▸ under.placed_control.1⟩
    · exact ⟨payload, top ▸ under.placed_payload.1⟩

end Column

namespace Circuit

variable {c : Circuit} {p : Partition}

theorem length_linkedColumn (i : Nat) (column : Column Gate) :
    (c.linkedColumn p i column).length = column.length + (c.linksFor p).length * 2 := by
  rw [linkedColumn]
  generalize Column.sites p i column = sites
  have same (slots : Column Gate) :
      (Column.putLinks (c.linksFor p) sites slots).length = slots.length := by
    induction sites generalizing slots with
    | nil => rfl
    | cons s rest ih =>
      cases link : s.link? (c.linksFor p) with
      | none => simpa [Column.putLinks, link] using ih slots
      | some l => rw [Column.putLinks_cons link, ih, Column.length_putLink]
  rw [same, List.length_append, List.length_replicate]

/-- Linking a column empties and replaces cells without circuits. -/
theorem patched_linkedColumn (apart : ∀ column ∈ c.columns, Column.Apart c.wires column) {i : Nat}
    {column : Column Gate} (found : c.columns[i]? = some column) :
    Patched column (c.linkedColumn p i column) := by
  have replaces := replaces_linkedColumn (Linkable.of_apart apart (p := p)) found
  have apart := apart column (List.mem_of_getElem? found)
  have length := length_linkedColumn (c := c) (p := p) i column
  generalize c.linkedColumn p i column = column' at replaces length
  refine .of_slots fun r => ?_
  cases cell' : column'[r]? with
  | none =>
    have beyond := List.getElem?_eq_none_iff.mp cell'
    rw [List.getElem?_eq_none (by omega)]
    exact .keep none
  | some slot' =>
    cases slot' with
    | some g' =>
      obtain ⟨s, isSite, link, -, rfl, rfl⟩ | ⟨-, old⟩ :=
        (replaces r g').mp (Column.mem_placed.mpr cell')
      · obtain ⟨g, top⟩ := Column.exists_placed_top isSite
        have inside : s.top ∈ s.rows := by
          rw [(apart.owns isSite).rows_eq, List.mem_pair, Site.top]
          omega
        rw [Column.mem_placed.mp top]
        exact .replace (apart.plain_of_mem_rows isSite top inside).2 rfl
          (s.find?_id_placeholder link)
      · rw [Column.mem_placed.mp old]
        exact .keep _
    | none =>
      cases cell : column[r]? with
      | none => exact .blank
      | some slot =>
        cases slot with
        | none => exact .keep _
        | some g =>
          have placed : (r, g) ∈ Column.placed column := Column.mem_placed.mpr cell
          obtain ⟨s, isSite, inside⟩ : ∃ s ∈ Column.sites p i column, r ∈ s.rows := by
            by_contra outside
            have stays := (replaces r g).mpr
              (.inr ⟨fun s isSite inside => outside ⟨s, isSite, inside⟩, placed⟩)
            rw [Column.mem_placed, cell'] at stays
            cases stays
          exact .empty (apart.plain_of_mem_rows isSite placed inside).2

/-- **Linking a circuit empties and replaces cells without circuits.** -/
theorem patched_linked (apart : ∀ column ∈ c.columns, Column.Apart c.wires column) :
    Patched c.columns.flatten (c.linked p).columns.flatten := by
  refine .flatten (List.forall₂_iff_get.mpr ⟨by simp [linked], fun i bound bound' => ?_⟩)
  have patched := patched_linkedColumn (p := p) apart (List.getElem?_eq_getElem bound)
  simpa [linked] using patched

end Circuit

/-! ## Hidden ids -/

/-- What stands opposite an item in the middle of a list. -/
theorem exists_split_of_forall₂ {α β : Type} {R : α → β → Prop} {as : List α} {bs bs' : List β}
    {b : β} (h : List.Forall₂ R as (bs ++ b :: bs')) :
    ∃ as₁ a as₂, as = as₁ ++ a :: as₂ ∧ List.Forall₂ R as₁ bs ∧ R a b := by
  induction bs generalizing as with
  | nil =>
    obtain _ | ⟨first, -⟩ := h
    exact ⟨[], _, _, rfl, .nil, first⟩
  | cons b' bs ih =>
    obtain _ | ⟨first, others⟩ := h
    obtain ⟨as₁, a, as₂, rfl, before, here⟩ := ih others
    exact ⟨_ :: as₁, a, as₂, rfl, .cons first before, here⟩

theorem Definition.allAvoid_iff {taken : List String} {ds : List Definition} :
    Definition.allAvoid taken ds ↔ ∀ before d after, ds = before ++ d :: after →
      d.avoids ((before.map (·.id)).reverse ++ taken) := by
  induction ds generalizing taken with
  | nil => simp [Definition.allAvoid]
  | cons d rest ih =>
    rw [Definition.allAvoid, Bool.and_eq_true, ih]
    constructor
    · rintro ⟨first, others⟩ before d' after split
      rcases List.cons_eq_append_iff.mp split with ⟨rfl, same⟩ | ⟨before, rfl, split⟩
      · cases same
        exact first
      · simpa using others before d' after (List.cons.inj split).2
    · intro each
      refine ⟨each [] d rest rfl, fun before d' after split => ?_⟩
      simpa using each (d :: before) d' after (by rw [split, List.cons_append])

open Circuit

variable {c : Circuit} {p : Partition}

/-- A circuit that avoids some ids avoids others that are among them or are not built in. -/
theorem Circuit.Describable.avoids_mono (h : c.Describable) {d : Description}
    (encoded : c.encode = .ok d) {taken taken' : List String}
    (known : ∀ id ∈ taken', id ∈ taken ∨ Catalog.find? id = none) (avoids : d.avoids taken) :
    d.avoids taken' := by
  induction h generalizing d taken taken' with
  | @intro c valid ids gates _ ih =>
    obtain ⟨ds, definitions, rfl⟩ := Circuit.encode_eq_ok.mp encoded
    rw [Circuit.avoids_iff ids definitions] at avoids ⊢
    obtain ⟨avoids, plain⟩ := avoids
    constructor
    · have here : ∀ g ∈ c.customs, c.At g := fun g defined => (Circuit.of_mem_customs defined).1
      clear encoded plain
      generalize c.customs = gs at definitions here
      induction definitions generalizing taken taken' with
      | nil => rfl
      | @cons g d gs ds first _ others =>
        rw [Definition.allAvoid, Bool.and_eq_true] at avoids ⊢
        constructor
        · rw [Definition.avoids_iff] at avoids ⊢
          intro description found
          obtain ⟨body, nested, described⟩ := (Gate.circuit_of_encode first).mp found
          exact ih g body (here g List.mem_cons_self) nested described known
            (avoids.1 description found)
        · refine others (fun id inside => ?_) avoids.2
            fun h inside => here h (List.mem_cons_of_mem _ inside)
          rcases List.mem_cons.mp inside with rfl | later
          · exact .inl List.mem_cons_self
          · exact (known id later).imp_left (List.mem_cons_of_mem _)
    · intro g inside builtIn hidden
      rcases known g.id hidden with old | foreign
      · exact plain g inside builtIn old
      · obtain ⟨entry, found, -⟩ := isBuiltIn_iff.mp builtIn
        rw [foreign] at found
        cases found

/-- Gates of one id hold circuits together. -/
theorem Circuit.Describable.flat (h : c.Describable) (g k : Gate)
    (inside : some g ∈ c.columns.flatten) (inside' : some k ∈ c.columns.flatten)
    (same : g.id = k.id) (flat : g.body? = none) : k.body? = none := by
  obtain ⟨-, ids, -, -⟩ := h
  have equal := Gate.beq_iff.mp
    (ids g k (at_iff_mem_flatten.mpr inside) (at_iff_mem_flatten.mpr inside') same)
  by_contra nested
  obtain ⟨body, found⟩ := Option.ne_none_iff_exists'.mp nested
  obtain ⟨_, found', -⟩ := equal.symm.body found
  rw [flat] at found'
  cases found'

/-- A gate with a circuit that is defined for a linked circuit was defined before, and the built-in
ids that are now defined first were defined first. -/
theorem Circuit.Describable.follows_customs (h : c.Describable) {before after : List Gate} {g : Gate}
    (customs : (c.linked p).customs = before ++ g :: after) (nested : g.body? ≠ none) :
    Patched.Follows [] c.customs before g := by
  obtain ⟨valid, -, -, -⟩ := id h
  exact (patched_linked (validate_eq_ok.mp valid).1).follows_newGates h.flat
    (fun _ _ _ old => absurd old List.not_mem_nil) customs nested

/-- **Linking a circuit hides no built-in gate** that was not hidden before. -/
theorem Circuit.Describable.avoids_linked (h : c.Describable)
    (h' : (c.linked p).Describable) {d d' : Description} (encoded : c.encode = .ok d)
    (encoded' : (c.linked p).encode = .ok d') (avoids : d.avoids []) : d'.avoids [] := by
  obtain ⟨-, ids, -, bodies⟩ := id h
  obtain ⟨-, ids', -, -⟩ := h'
  obtain ⟨ds, definitions, rfl⟩ := Circuit.encode_eq_ok.mp encoded
  obtain ⟨ds', definitions', rfl⟩ := Circuit.encode_eq_ok.mp encoded'
  rw [Circuit.avoids_iff ids definitions, Definition.allAvoid_iff] at avoids
  rw [Circuit.avoids_iff ids' definitions', Definition.allAvoid_iff]
  refine ⟨fun before e after split => ?_, fun _ _ _ => List.not_mem_nil⟩
  rw [split] at definitions'
  obtain ⟨gs, g, gs', customs', earlier, here⟩ := exists_split_of_forall₂ definitions'
  rw [Definition.avoids_iff]
  intro description found
  obtain ⟨body, nested, described⟩ := (Gate.circuit_of_encode here).mp found
  obtain ⟨gs₀, gs₀', customs, each⟩ := h.follows_customs customs' (by simp [nested])
  rw [customs] at definitions
  obtain ⟨ds₀, e', ds₀', rfl, earlier', here'⟩ := exists_split_of_forall₂ definitions.flip
  cases here.symm.trans here'
  have inside : c.At g := (of_mem_customs (customs ▸ List.mem_append_right _ List.mem_cons_self)).1
  have before' := Definition.avoids_iff.mp (avoids.1 ds₀ e ds₀' rfl) description found
  refine (bodies g body inside nested).avoids_mono described (fun id taken => ?_) before'
  simp only [List.append_nil, List.mem_reverse, List.mem_map] at taken ⊢
  obtain ⟨e₁, inBefore, rfl⟩ := taken
  obtain ⟨g₁, inGates, first⟩ := exists_left_of_mem earlier inBefore
  rw [Gate.id_of_encode first]
  rcases each g₁ inGates with none | defined | foreign
  · cases none
  · obtain ⟨g₂, inGates, same⟩ := List.mem_map.mp defined
    obtain ⟨e₂, inBefore, second⟩ := exists_left_of_mem earlier' inGates
    exact .inl ⟨e₂, inBefore, (Gate.id_of_encode second).trans same⟩
  · exact .inr foreign

/-- A gate with a circuit that is defined for a linked circuit was defined before. -/
theorem Circuit.Describable.mem_customs_of_linked (h : c.Describable) {g : Gate}
    (defined : g ∈ (c.linked p).customs) (nested : g.body? ≠ none) : g ∈ c.customs := by
  obtain ⟨before, after, customs⟩ := List.append_of_mem defined
  obtain ⟨before₀, after₀, customs₀, -⟩ := h.follows_customs customs nested
  exact customs₀ ▸ List.mem_append_right _ List.mem_cons_self

end CircuitGrid
