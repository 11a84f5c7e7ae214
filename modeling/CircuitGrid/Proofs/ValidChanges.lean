import CircuitGrid.Proofs.InPlace

/-!
# Changes that keep a circuit well formed

A gate is checked twice: when it is placed, against the rows that are taken already, and when the
whole circuit is validated, row by row. Both checks agree but for placeholders whose two ends are
the same wire: such a placeholder takes one row, so it can be placed, but it is counted twice. And
what was placed inside the circuit may be outside once the number of wires has wrapped around.

* `Circuit.validate_setCell_iff`: a gate that is put into a slot of a well-formed circuit;
* `Circuit.Places`: the gates that are placed by a sequence of changes;
* `Circuit.cell?_of_changed`, `Circuit.places_of_cell?`: where the gates of a circuit come from;
* **`Circuit.validate_after_iff`**: the sequences of changes that lead to a well-formed circuit.
-/

namespace CircuitGrid

namespace Circuit

variable {c out start : Circuit} {i column row r : Nat} {g gate : Gate} {changes : List Change}

/-! ## One gate -/

/-- A gate that is put into an empty slot of a well-formed circuit keeps it well formed exactly
when it can be placed there, its ends are two wires if it is a placeholder, and it is sound by
itself. -/
theorem validate_setCell_iff (valid : c.validate = .ok ()) (inside : row < c.wires)
    (reached : c.canReach column row) (empty : c.cell? column row = none) :
    ((c.growTo (column + 1)).setCell column row (some gate)).validate = .ok () ↔
      (∃ out, c.place column row gate = .ok out) ∧
        (∀ payload, gate.placeholder? = some payload → payload.source ≠ payload.target) ∧
          checkGate gate = .ok () := by
  have split := fun slots h => ((validate_eq_ok.mp valid).1 slots h).toSplit
  rw [← Gate.nodup_rowsAt_iff row]
  constructor
  · intro whole
    obtain ⟨lie, each⟩ := validate_eq_ok.mp whole
    have slot : row < ((c.growTo (column + 1)).column column).length := by
      rwa [length_column_growTo split]
    have set : ((c.growTo (column + 1)).setCell column row (some gate)).cell? column row =
        some gate := by
      rw [cell?_setCell, if_pos ⟨rfl, rfl, slot⟩]
    obtain ⟨slots, isColumn, placed⟩ := cell?_eq_some.mp set
    have lie := lie slots (List.mem_of_getElem? isColumn)
    refine ⟨⟨_, place_eq_ok.mpr ⟨lie.in_range row gate placed, lie.own_row row gate placed,
      fun r covers taken => ?_, reached, rfl⟩⟩, each column row gate set⟩
    -- A gate on one of the rows would stand in the same slot, which was empty.
    obtain ⟨row', g', before, covers'⟩ := covers_column_iff.mp taken
    have differ : row ≠ row' := by
      rintro rfl
      rw [empty] at before
      cases before
    have stays : ((c.growTo (column + 1)).setCell column row (some gate)).cell? column row' =
        some g' := by
      rwa [cell?_setCell, if_neg fun h => differ h.2.1, cell?_growTo]
    obtain ⟨slots', isColumn', placed'⟩ := cell?_eq_some.mp stays
    cases isColumn.symm.trans isColumn'
    exact differ (lie.one_each row gate row' g' r placed placed' covers covers')
  · rintro ⟨⟨out, placed⟩, nodup, sound⟩
    have whole := validate_place valid nodup sound placed
    rwa [(place_eq_ok.mp placed).2.2.2.2] at whole

/-! ## Sequences of changes -/

/-- The gate is placed by one of the changes. -/
def Places (start : Circuit) (changes : List Change) (gate : Gate) : Prop :=
  ∃ before rest column row c out, changes = before ++ .place column row gate :: rest ∧
    start.after before = some c ∧ c.place column row gate = .ok out

theorem Places.append (places : Places start changes gate) (later : List Change) :
    Places start (changes ++ later) gate := by
  obtain ⟨before, rest, column, row, c, out, rfl, reached, placed⟩ := places
  exact ⟨before, rest ++ later, column, row, c, out, by simp, reached, placed⟩

theorem cell?_of_changed (built : c.Built) {change : Change}
    (done : c.changed change = some out) (found : out.cell? i r = some g) :
    c.cell? i r = some g ∨ ∃ out, change = .place i r g ∧ c.place i r g = .ok out := by
  cases change with
  | place column row gate =>
    rw [changed] at done
    split at done
    · next placed =>
      cases done
      rw [cell?_place built.split placed] at found
      split at found
      · next here =>
        obtain ⟨rfl, rfl⟩ := here
        cases found
        exact .inr ⟨out, rfl, placed⟩
      · exact .inl found
    · cases done
      exact .inl found
    · cases done
  | clear column row =>
    cases done
    rw [cell?_clear] at found
    split at found
    · cases found
    · exact .inl found
  | appendWires count =>
    obtain ⟨-, rfl⟩ := appendWires_eq_some.mp done
    exact .inl (cell?_resized.mp found).2
  | pushColumn =>
    rw [cell?_pushColumn done] at found
    exact .inl found

/-- A gate of a circuit was there at the start, or it was placed by one of the changes. -/
theorem places_of_cell? (built : start.Built) (reached : start.after changes = some c)
    (found : c.cell? i r = some g) : start.cell? i r = some g ∨ start.Places changes g := by
  revert found
  refine after_induction (motive := fun changes c => c.cell? i r = some g →
    start.cell? i r = some g ∨ start.Places changes g) reached .inl ?_
  intro before change b out there ih done found
  obtain old | ⟨out, rfl, placed⟩ := cell?_of_changed (built.after there) done found
  · exact (ih old).imp_right (·.append [change])
  · exact .inr ⟨before, [], i, r, b, out, rfl, there, placed⟩

/-- **When changes lead to a well-formed circuit.** Changes of an empty circuit are tried one after
the other, and every gate that is placed is sound by itself. The outcome is well formed exactly when
the ends of all its placeholders are two wires and its gates lie inside, which they do if no number
of wires has wrapped around. If it is, and a further gate that is sound is put into an empty slot
that can be reached, the circuit stays well formed exactly when the gate can be placed there and,
being a placeholder, has two wires for ends. -/
theorem validate_after_iff {wires : Nat} (reached : after (Grid.empty wires) changes = some c)
    (sound : ∀ gate, Places (Grid.empty wires) changes gate → checkGate gate = .ok ()) :
    (c.validate = .ok () ↔
      (∀ i row payload, c.placeholder? i row = some payload → payload.source ≠ payload.target) ∧
        ∀ i row g, c.cell? i row = some g → ∀ r ∈ g.rowsAt row, r < c.wires) ∧
      (Unwrapped (Grid.empty wires) changes →
        ∀ i row g, c.cell? i row = some g → ∀ r ∈ g.rowsAt row, r < c.wires) ∧
      (c.validate = .ok () → ∀ column row gate, row < c.wires → c.canReach column row →
        c.cell? column row = none → checkGate gate = .ok () →
          (((c.growTo (column + 1)).setCell column row (some gate)).validate = .ok () ↔
            (∃ out, c.place column row gate = .ok out) ∧
              ∀ payload, gate.placeholder? = some payload → payload.source ≠ payload.target)) := by
  have built : Built (Grid.empty wires) := .empty wires
  have blank : ∀ slots ∈ (Grid.empty wires : Circuit).columns, Column.Apart wires slots :=
    fun slots h => absurd h List.not_mem_nil
  have new (i row : Nat) (g : Gate) : (Grid.empty wires : Circuit).cell? i row ≠ some g := by
    simp [Grid.cell?, Grid.column, Grid.empty]
  have sound {i row : Nat} {g : Gate} (found : c.cell? i row = some g) : checkGate g = .ok () :=
    sound g ((places_of_cell? built reached found).resolve_left (new i row g))
  have inRange (apart : ∀ slots ∈ c.columns, Column.Apart c.wires slots) (i row : Nat) (g : Gate)
      (found : c.cell? i row = some g) : ∀ r ∈ g.rowsAt row, r < c.wires := by
    obtain ⟨slots, isColumn, placed⟩ := cell?_eq_some.mp found
    exact (apart slots (List.mem_of_getElem? isColumn)).in_range row g placed
  refine ⟨?_, fun unwrapped => inRange (apart_of_after blank reached unwrapped),
    fun valid column row gate inside reach empty sound => ?_⟩
  · rw [validate_eq_ok]
    constructor
    · rintro ⟨apart, each⟩
      refine ⟨fun i row payload there => ?_, inRange apart⟩
      obtain ⟨g, found, role⟩ := placeholder?_eq_some.mp there
      exact (Gate.nodup_rowsAt_iff row).mp (each i row g found).1 payload role
    · rintro ⟨differ, inside⟩
      refine ⟨fun slots h => ?_, fun i row g found => ⟨?_, sound found⟩⟩
      · obtain ⟨i, isColumn⟩ := List.mem_iff_getElem?.mp h
        exact ⟨(built.after reached).split slots h, fun row g placed =>
          inside i row g (cell?_eq_some.mpr ⟨slots, isColumn, placed⟩)⟩
      · exact (Gate.nodup_rowsAt_iff row).mpr fun payload role =>
          differ i row payload (placeholder?_eq_some.mpr ⟨g, found, role⟩)
  · rw [validate_setCell_iff valid inside reach empty, and_iff_left sound]

/-- A placeholder is placed around a gate and taken out again, wires are appended, and a gate of two
rows is refused and then placed further down. The placeholder can be put back. -/
theorem validate_after_two_ends :
    let p := Gate.nonLocal "p" ⟨.cx, 2, 0, (3, 4)⟩
    let t := (Gate.basic "T" "").withHeight 2
    let changes := [.place 0 0 p, .place 0 1 (Gate.basic "X" ""), .clear 0 0, .place 1 0 p,
      .appendWires 1, .place 1 2 t, .pushColumn, .place 2 2 t]
    ∃ c, after (Grid.empty 3) changes = some c ∧
      (∀ gate, Places (Grid.empty 3) changes gate → checkGate gate = .ok ()) ∧
      c.placements.map (fun q => (q.1, q.2.1, q.2.2.id)) =
        [(0, 1, "X"), (1, 0, "p"), (2, 2, "T")] ∧
      c.validate = .ok () ∧ ((c.growTo 1).setCell 0 0 (some p)).validate = .ok () := by
  intro p t changes
  have sound (gate : Gate) (places : Places (Grid.empty 3) changes gate) :
      checkGate gate = .ok () := by
    obtain ⟨before, rest, column, row, c, out, same, -⟩ := places
    have inside : Change.place column row gate ∈ changes := by simp [same]
    simp only [changes, List.mem_cons, Change.place.injEq, reduceCtorEq, List.not_mem_nil,
      or_false, false_or] at inside
    obtain ⟨-, -, rfl⟩ | ⟨-, -, rfl⟩ | ⟨-, -, rfl⟩ | ⟨-, -, rfl⟩ | ⟨-, -, rfl⟩ := inside <;>
      decide +kernel
  let c : Circuit := ⟨4, [[none, some (Gate.basic "X" ""), none, none], [some p, none, none, none],
    [none, none, some t, none]]⟩
  have reached : after (Grid.empty 3) changes = some c := by
    rw [after_eq]
    rfl
  obtain ⟨whole, -, further⟩ := validate_after_iff reached sound
  have ends : c.placements.all fun q => q.2.2.placeholder?.all fun payload =>
      payload.source ≠ payload.target := by decide +kernel
  have rows : c.placements.all fun q => (q.2.2.rowsAt q.2.1).all (· < 4) := by decide +kernel
  have valid : c.validate = .ok () := by
    refine whole.mpr ⟨fun i row payload found => ?_, fun i row g found r covers => ?_⟩
    · exact of_decide_eq_true (placeholder_passes ends found)
    · simpa using List.all_eq_true.mp (List.all_eq_true.mp rows _ (mem_placements.mpr found)) r covers
  have free : ∃ out, c.place 0 0 p = .ok out := ⟨_, rfl⟩
  refine ⟨c, reached, sound, rfl, valid, ?_⟩
  refine (further valid 0 0 p (by decide) rfl rfl (by decide +kernel)).mpr ⟨free, ?_⟩
  rintro payload ⟨⟩
  decide

/-- **A placeholder from a wire to the same wire** is placed and then found to overlap itself. -/
theorem not_validate_after :
    ¬ ∀ (wires : Nat) (changes : List Change) (c : Circuit),
      after (Grid.empty wires) changes = some c → Unwrapped (Grid.empty wires) changes →
        (∀ gate, Places (Grid.empty wires) changes gate → checkGate gate = .ok ()) →
          c.validate = .ok () := by
  intro all
  let p := Gate.nonLocal "p" ⟨.cx, 0, 0, (1, 2)⟩
  have inside {before rest : List Change} {change : Change}
      (same : [.place 0 0 p] = before ++ change :: rest) : change = .place 0 0 p := by
    simpa [← same] using List.mem_append_right before (List.mem_cons_self (a := change) (l := rest))
  have valid := all 3 [.place 0 0 p] ⟨3, [[some p, none, none]]⟩ (by rw [after_eq]; rfl)
    (fun before count rest c same => by cases inside same)
    fun gate places => by
      obtain ⟨before, rest, column, row, c, out, same, -⟩ := places
      cases inside same
      decide +kernel
  cases valid

end Circuit

end CircuitGrid
