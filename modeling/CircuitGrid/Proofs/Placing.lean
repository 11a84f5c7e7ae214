import CircuitGrid.Proofs.Editing

/-!
# Gates can be placed in any order

A gate is refused for the rows that other gates cover, and which gates have been placed before does
not matter otherwise. So a list of gates can be placed when each of them can be placed alone and no
two of them cover a row of the same column, and the circuit they lead to is the same in whatever
order they come.

* `Circuit.placeAll`: gates placed one after the other;
* `Circuit.Takes`, `Circuit.OffRows`: a gate that can be placed, and gates that are not in each
  other's way;
* `Circuit.put_comm`: putting gates into different slots, in either order;
* `Circuit.placeAll_eq_ok`: the lists of gates that can be placed;
* **`Circuit.placeAll_of_perm`**: another order of the same gates.
-/

namespace CircuitGrid

namespace Circuit

variable {c out : Circuit} {i j r s count : Nat}

/-! ## Slots that are set in turn -/

theorem growTo_growTo (c : Circuit) (m n : Nat) : (c.growTo m).growTo n = c.growTo (max m n) := by
  have total : m - c.columns.length + (n - (c.columns.length + (m - c.columns.length))) =
      max m n - c.columns.length := by omega
  simp only [growTo, List.length_append, List.length_replicate, List.append_assoc,
    List.replicate_append_replicate, total]

theorem growTo_setCell {cell : Option Gate} (there : i < c.columns.length) :
    (c.setCell i r cell).growTo count = (c.growTo count).setCell i r cell := by
  simp only [growTo, setCell, List.length_modify, Grid.mk.injEq, true_and]
  refine List.ext_getElem? fun k => ?_
  simp only [List.getElem?_append, List.getElem?_modify, List.length_modify]
  by_cases old : k < c.columns.length
  · simp [old]
  · have : i ≠ k := by omega
    simp [old, this]

theorem setCell_comm {cell cell' : Option Gate} (differ : i ≠ j ∨ r ≠ s) :
    (c.setCell i r cell).setCell j s cell' = (c.setCell j s cell').setCell i r cell := by
  simp only [setCell, Grid.mk.injEq, true_and]
  refine List.ext_getElem? fun k => ?_
  simp only [List.getElem?_modify]
  cases c.columns[k]? with
  | none => rfl
  | some column =>
    by_cases first : i = k
    · by_cases second : j = k
      · have rows : r ≠ s := differ.resolve_left fun columns => columns (first.trans second.symm)
        simp [first, second, List.set_comm _ _ rows]
      · simp [first, second]
    · simp [first]

/-- The circuit with a gate in a slot, whatever was there. -/
def put (c : Circuit) (p : Nat × Nat × Gate) : Circuit :=
  (c.growTo (p.1 + 1)).setCell p.1 p.2.1 (some p.2.2)

/-- **Gates are put into two slots in either order.** -/
theorem put_comm {p q : Nat × Nat × Gate} (differ : p.1 ≠ q.1 ∨ p.2.1 ≠ q.2.1) (c : Circuit) :
    (c.put p).put q = (c.put q).put p := by
  have there (i : Nat) : i < (c.growTo (i + 1)).columns.length := by
    simp only [growTo, List.length_append, List.length_replicate]
    omega
  calc (c.put p).put q
    _ = ((c.growTo (max (p.1 + 1) (q.1 + 1))).setCell p.1 p.2.1 (some p.2.2)).setCell
          q.1 q.2.1 (some q.2.2) := by
        rw [put, put, growTo_setCell (there p.1), growTo_growTo]
    _ = ((c.growTo (max (q.1 + 1) (p.1 + 1))).setCell q.1 q.2.1 (some q.2.2)).setCell
          p.1 p.2.1 (some p.2.2) := by rw [setCell_comm differ, Nat.max_comm]
    _ = (c.put q).put p := by
        rw [put, put, growTo_setCell (there q.1), growTo_growTo]

/-! ## Gates that can be placed -/

/-- The gate can be placed: it covers rows of the circuit that are free, its own among them, and its
column is there or held. -/
structure Takes (c : Circuit) (p : Nat × Nat × Gate) : Prop where
  in_range : ∀ r ∈ p.2.2.rowsAt p.2.1, r < c.wires
  own_row : p.2.1 ∈ p.2.2.rowsAt p.2.1
  free : ∀ r ∈ p.2.2.rowsAt p.2.1, ¬ Column.covers (c.column p.1) r
  reached : p.1 < c.columns.length ∨ Memory.machine.holdsColumn c.wires

/-- Two gates are not in each other's way: they stand in different columns or cover different
rows. -/
def OffRows (p q : Nat × Nat × Gate) : Prop :=
  p.1 = q.1 → (p.2.2.rowsAt p.2.1).Disjoint (q.2.2.rowsAt q.2.1)

theorem OffRows.symm {p q : Nat × Nat × Gate} (off : OffRows p q) : OffRows q p :=
  fun same => (off same.symm).symm

theorem OffRows.slots {p q : Nat × Nat × Gate} (off : OffRows p q) (first : c.Takes p)
    (second : c.Takes q) : p.1 ≠ q.1 ∨ p.2.1 ≠ q.2.1 := by
  by_contra same
  rw [not_or, Decidable.not_not, Decidable.not_not] at same
  refine off same.1 first.own_row ?_
  rw [same.2]
  exact second.own_row

theorem place_eq_ok_iff_takes (apart : ∀ slots ∈ c.columns, Column.Apart c.wires slots)
    {p : Nat × Nat × Gate} : c.place p.1 p.2.1 p.2.2 = .ok out ↔ c.Takes p ∧ out = c.put p := by
  have split := fun slots h => (apart slots h).toSplit
  rw [place_eq_ok]
  constructor
  · rintro ⟨inside, own, free, reached, same⟩
    exact ⟨⟨inside, own, free, (canReach_iff split (inside _ own)).mp reached⟩, same⟩
  · rintro ⟨⟨inside, own, free, reached⟩, same⟩
    exact ⟨inside, own, free, (canReach_iff split (inside _ own)).mpr reached, same⟩

/-- A gate that is placed covers its rows, and the rows that were covered stay so. -/
theorem covers_put (apart : ∀ slots ∈ c.columns, Column.Apart c.wires slots)
    {p : Nat × Nat × Gate} (takes : c.Takes p) :
    Column.covers ((c.put p).column j) r ↔
      Column.covers (c.column j) r ∨ (p.1 = j ∧ r ∈ p.2.2.rowsAt p.2.1) := by
  have placed : c.place p.1 p.2.1 p.2.2 = .ok (c.put p) :=
    (place_eq_ok_iff_takes apart).mpr ⟨takes, rfl⟩
  have split := fun slots h => (apart slots h).toSplit
  have empty := cell?_eq_none_of_place split placed
  simp only [covers_column_iff, cell?_place split placed]
  constructor
  · rintro ⟨row, g, found, covers⟩
    split at found
    · next here =>
      cases found
      exact .inr ⟨here.1, here.2 ▸ covers⟩
    · exact .inl ⟨row, g, found, covers⟩
  · rintro (⟨row, g, found, covers⟩ | ⟨rfl, covers⟩)
    · refine ⟨row, g, ?_, covers⟩
      rwa [if_neg]
      rintro ⟨rfl, rfl⟩
      rw [empty] at found
      cases found
    · exact ⟨p.2.1, p.2.2, if_pos ⟨rfl, rfl⟩, covers⟩

/-- **After a gate another one can be placed** when it could be placed before and is not in its
way. -/
theorem takes_put_iff (apart : ∀ slots ∈ c.columns, Column.Apart c.wires slots)
    {p q : Nat × Nat × Gate} (takes : c.Takes p) :
    (c.put p).Takes q ↔ c.Takes q ∧ OffRows p q := by
  have grown : (c.put p).columns.length = max c.columns.length (p.1 + 1) := by
    simp only [put, setCell, growTo, List.length_modify, List.length_append, List.length_replicate]
    omega
  constructor
  · rintro ⟨inside, own, free, reached⟩
    refine ⟨⟨inside, own, fun r h taken => ?_, ?_⟩, fun same r first second => ?_⟩
    · exact free r h ((covers_put apart takes).mpr (.inl taken))
    · -- where columns are not held, the first gate has appended none
      refine or_iff_not_imp_right.mpr fun full => ?_
      have there := takes.reached.resolve_right full
      have := reached.resolve_right full
      omega
    · exact free r second ((covers_put apart takes).mpr (.inr ⟨same, first⟩))
  · rintro ⟨⟨inside, own, free, reached⟩, off⟩
    refine ⟨inside, own, fun r h taken => ?_, reached.imp_left (by omega)⟩
    obtain taken | ⟨same, covers⟩ := (covers_put apart takes).mp taken
    · exact free r h taken
    · exact off same covers h

/-! ## Lists of gates -/

/-- Places gates one after the other, each with its column and row. -/
def placeAll (c : Circuit) (gates : List (Nat × Nat × Gate)) : Except (Stop CircuitError) Circuit :=
  gates.foldlM (fun c p => c.place p.1 p.2.1 p.2.2) c

/-- **The lists of gates that can be placed** are those of gates that can be placed alone and are
not in each other's way. -/
theorem placeAll_eq_ok (apart : ∀ slots ∈ c.columns, Column.Apart c.wires slots)
    {gates : List (Nat × Nat × Gate)} : c.placeAll gates = .ok out ↔
      (∀ p ∈ gates, c.Takes p) ∧ gates.Pairwise OffRows ∧ out = gates.foldl put c := by
  induction gates generalizing c with
  | nil => simp [placeAll, pure, Except.pure, eq_comm]
  | cons p rest ih =>
    have step : c.placeAll (p :: rest) = .ok out ↔
        c.Takes p ∧ (c.put p).placeAll rest = .ok out := by
      simp only [placeAll, List.foldlM_cons, Except.bind_eq_ok, place_eq_ok_iff_takes apart]
      constructor
      · rintro ⟨_, ⟨takes, rfl⟩, others⟩
        exact ⟨takes, others⟩
      · rintro ⟨takes, others⟩
        exact ⟨_, ⟨takes, rfl⟩, others⟩
    rw [step, List.forall_mem_cons, List.pairwise_cons, List.foldl_cons, and_assoc]
    refine and_congr_right fun takes => ?_
    have placed : c.place p.1 p.2.1 p.2.2 = .ok (c.put p) :=
      (place_eq_ok_iff_takes apart).mpr ⟨takes, rfl⟩
    rw [ih (apart_place apart placed)]
    simp only [takes_put_iff apart takes, forall₂_and, and_assoc]

/-- **Gates can be placed in any order.** If a list of gates can be placed one after the other in a
circuit whose gates lie apart, then so can they in any other order, and they lead to the same
circuit. -/
theorem placeAll_of_perm (apart : ∀ slots ∈ c.columns, Column.Apart c.wires slots)
    {gates gates' : List (Nat × Nat × Gate)} (perm : gates.Perm gates')
    (placed : c.placeAll gates = .ok out) : c.placeAll gates' = .ok out := by
  obtain ⟨each, off, rfl⟩ := (placeAll_eq_ok apart).mp placed
  refine (placeAll_eq_ok apart).mpr ⟨fun p h => each p (perm.mem_iff.mpr h), ?_, ?_⟩
  · exact perm.pairwise off OffRows.symm
  · refine perm.foldl_eq' (fun p hp q hq c => ?_) c
    by_cases same : p = q
    · rw [same]
    · have : Std.Symm OffRows := ⟨fun _ _ => OffRows.symm⟩
      exact put_comm ((off.forall hp hq same).slots (each p hp) (each q hq)) c

/-- A gate between the ends of a placeholder, which stands in the lower one, and a gate in a column
that is there already, in both orders. -/
theorem placeAll_of_perm_between_ends :
    let c : Circuit := ⟨3, [[some ((Gate.basic "T" "").withHeight 2), none, none]]⟩
    let gates := [(2, 2, Gate.nonLocal "p" ⟨.cx, 2, 0, (3, 4)⟩), (0, 2, Gate.basic "X" ""),
      (2, 1, Gate.basic "Y" "")]
    (∀ slots ∈ c.columns, Column.Apart c.wires slots) ∧ gates.Perm gates.reverse ∧
      ∃ out, c.placeAll gates = .ok out ∧ c.placeAll gates.reverse = .ok out ∧
        out.placements.map (fun q => (q.1, q.2.1, q.2.2.id)) =
          [(0, 0, "T"), (0, 2, "X"), (2, 1, "Y"), (2, 2, "p")] := by
  intro c gates
  have valid : c.validate = .ok () := rfl
  have apart := (validate_eq_ok.mp valid).1
  have perm : gates.Perm gates.reverse := (List.reverse_perm gates).symm
  obtain ⟨out, placed⟩ : ∃ out, c.placeAll gates = .ok out := ⟨_, rfl⟩
  refine ⟨apart, perm, out, placed, placeAll_of_perm apart perm placed, ?_⟩
  cases placed
  rfl

end Circuit

end CircuitGrid
