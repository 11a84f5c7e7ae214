import CircuitGrid.Circuit.Edit
import CircuitGrid.Proofs.Checked
import CircuitGrid.Proofs.Layout

/-!
# Building circuits keeps gates apart

Circuits are built by placing gates into slots and taking them out, by appending wires and columns,
and from columns that are checked first. A gate is placed only on rows of the circuit that no other
gate covers. So in whatever circuit is built that way, no row belongs to two gates. Where the number
of wires wraps around, columns are cut, and a gate may be left with rows outside the circuit.

* `Circuit.cell?_eq_some`, `Circuit.mem_placements`, `Circuit.placeholder?`: the gates of a circuit
  and their slots;
* `Circuit.place_eq_ok`, `Circuit.cell?_place`, `Circuit.cell?_clear`: what placing and clearing do;
* `Column.mem_placed_padTo`, `Circuit.cell?_resized`: circuits on another number of wires;
* `Circuit.Built`: the circuits that can be built, and **`Circuit.Built.split`**;
* `Circuit.validate_eq_ok`: well-formed circuits slot by slot, and the edits that keep them so.
-/

namespace CircuitGrid

/-! ## Slots of a column -/

namespace Column

variable {wires row : Nat} {column : Column Gate} {g : Gate}

theorem not_mem_placed_blank (wires row : Nat) (g : Gate) :
    (row, g) ∉ placed (List.replicate wires none) := by
  rw [mem_placed]
  intro h
  have := List.eq_of_mem_replicate (List.mem_of_getElem? h)
  cases this

theorem split_blank (wires : Nat) : Split wires (List.replicate wires none) where
  length_eq := List.length_replicate
  own_row row g h := absurd h (not_mem_placed_blank wires row g)
  one_each row g _ _ _ h := absurd h (not_mem_placed_blank wires row g)

theorem apart_blank (wires : Nat) : Apart wires (List.replicate wires none) where
  toSplit := split_blank wires
  in_range row g h := absurd h (not_mem_placed_blank wires row g)

theorem mem_placed_set {cell : Option Gate} (inside : row < column.length) {r : Nat} {h : Gate} :
    (r, h) ∈ placed (column.set row cell) ↔
      (r = row ∧ cell = some h) ∨ (r ≠ row ∧ (r, h) ∈ placed column) := by
  rw [mem_placed, mem_placed, List.getElem?_set]
  by_cases here : row = r
  · subst here
    simp [inside]
  · simp [here, Ne.symm here]

theorem covers_iff {r : Nat} :
    covers column r ↔ ∃ row g, (row, g) ∈ placed column ∧ r ∈ g.rowsAt row := by
  simp [covers]

/-- A gate on rows that no other gate covers is put into a column. -/
theorem Split.set_some (split : Split wires column) (slot : row < wires)
    (own : row ∈ g.rowsAt row) (free : ∀ r ∈ g.rowsAt row, ¬ covers column r) :
    Split wires (column.set row (some g)) := by
  have slot : row < column.length := split.length_eq ▸ slot
  have off {row' r : Nat} {g' : Gate} (placed' : (row', g') ∈ placed column)
      (covers' : r ∈ g'.rowsAt row') (here : r ∈ g.rowsAt row) : False :=
    free r here (covers_iff.mpr ⟨row', g', placed', covers'⟩)
  constructor
  · rw [List.length_set, split.length_eq]
  · intro row' g' h
    obtain ⟨rfl, same⟩ | ⟨-, placed'⟩ := (mem_placed_set slot).mp h
    · cases same
      exact own
    · exact split.own_row row' g' placed'
  · intro row₁ g₁ row₂ g₂ r h₁ h₂ covers₁ covers₂
    obtain ⟨rfl, same₁⟩ | ⟨-, placed₁⟩ := (mem_placed_set slot).mp h₁ <;>
      obtain ⟨rfl, same₂⟩ | ⟨-, placed₂⟩ := (mem_placed_set slot).mp h₂
    · rfl
    · cases same₁
      exact (off placed₂ covers₂ covers₁).elim
    · cases same₂
      exact (off placed₁ covers₁ covers₂).elim
    · exact split.one_each row₁ g₁ row₂ g₂ r placed₁ placed₂ covers₁ covers₂

theorem Apart.set_some (apart : Apart wires column) (inside : ∀ r ∈ g.rowsAt row, r < wires)
    (own : row ∈ g.rowsAt row) (free : ∀ r ∈ g.rowsAt row, ¬ covers column r) :
    Apart wires (column.set row (some g)) where
  toSplit := apart.toSplit.set_some (inside row own) own free
  in_range row' g' h := by
    have slot : row < column.length := apart.length_eq ▸ inside row own
    obtain ⟨rfl, same⟩ | ⟨-, placed'⟩ := (mem_placed_set slot).mp h
    · cases same
      exact inside
    · exact apart.in_range row' g' placed'

theorem placed_of_set_none {r : Nat} {h : Gate} (found : (r, h) ∈ placed (column.set row none)) :
    (r, h) ∈ placed column := by
  rw [mem_placed, List.getElem?_set] at found
  rw [mem_placed]
  split_ifs at found with here
  · cases found
  · exact found

theorem Split.set_none (split : Split wires column) (row : Nat) :
    Split wires (column.set row none) where
  length_eq := by rw [List.length_set, split.length_eq]
  own_row r h found := split.own_row r h (placed_of_set_none found)
  one_each r₁ h₁ r₂ h₂ r found₁ found₂ :=
    split.one_each r₁ h₁ r₂ h₂ r (placed_of_set_none found₁) (placed_of_set_none found₂)

theorem Apart.set_none (apart : Apart wires column) (row : Nat) :
    Apart wires (column.set row none) where
  toSplit := apart.toSplit.set_none row
  in_range r h found := apart.in_range r h (placed_of_set_none found)

/-- A column on another number of wires holds the gates whose slots are left. -/
theorem mem_placed_padTo {wires' : Nat} : (row, g) ∈ placed (padTo column wires') ↔
    row < wires' ∧ (row, g) ∈ placed column := by
  rw [padTo, placed_append_blank, mem_placed, mem_placed, List.getElem?_take]
  split
  · next left => simp [left]
  · next cut => simp [cut]

theorem length_padTo (column : Column Gate) (wires' : Nat) :
    (padTo column wires').length = wires' := by
  rw [padTo, List.length_append, List.length_take, List.length_replicate]
  omega

theorem Split.padTo (split : Split wires column) (wires' : Nat) :
    Split wires' (padTo column wires') where
  length_eq := length_padTo column wires'
  own_row r h found := split.own_row r h (mem_placed_padTo.mp found).2
  one_each r₁ h₁ r₂ h₂ r found₁ found₂ :=
    split.one_each r₁ h₁ r₂ h₂ r (mem_placed_padTo.mp found₁).2 (mem_placed_padTo.mp found₂).2

theorem Apart.padTo (apart : Apart wires column) {wires' : Nat} (le : wires ≤ wires') :
    Apart wires' (padTo column wires') where
  toSplit := apart.toSplit.padTo wires'
  in_range r h found r' covers :=
    Nat.lt_of_lt_of_le (apart.in_range r h (mem_placed_padTo.mp found).2 r' covers) le

end Column

/-! ## Slots of a circuit -/

namespace Circuit

variable {c out : Circuit} {i column row r count : Nat} {g gate : Gate} {cell : Option Gate}

theorem cell?_eq_some : c.cell? i r = some g ↔
    ∃ column, c.columns[i]? = some column ∧ (r, g) ∈ Column.placed column := by
  simp only [Grid.cell?, Grid.column, Column.mem_placed, Option.join_eq_some_iff]
  cases c.columns[i]? <;> simp

/-- The gates of a circuit are those in its slots. -/
theorem mem_placements : (i, r, g) ∈ c.placements ↔ c.cell? i r = some g := by
  rw [cell?_eq_some]
  simp only [Grid.placements, List.mem_flatMap, List.mem_map, Prod.exists, Prod.mk.injEq,
    List.mem_zipIdx_iff_getElem?]
  constructor
  · rintro ⟨column, index, found, row, g', placed, rfl, rfl, rfl⟩
    exact ⟨column, found, placed⟩
  · rintro ⟨column, found, placed⟩
    exact ⟨column, i, found, r, g, placed, rfl, rfl, rfl⟩

/-- The placeholder in a slot. -/
def placeholder? (c : Circuit) (column row : Nat) : Option Placeholder :=
  (c.cell? column row).bind Gate.placeholder?

theorem placeholder?_eq_some {payload : Placeholder} : c.placeholder? i r = some payload ↔
    ∃ g, c.cell? i r = some g ∧ g.placeholder? = some payload :=
  Option.bind_eq_some_iff

theorem placeholder?_of_cell? (found : c.cell? i r = some g) :
    c.placeholder? i r = g.placeholder? := by
  rw [placeholder?, found, Option.bind_some]

/-- A test that all placeholders of a circuit pass. -/
theorem placeholder_passes {test : Placeholder → Bool}
    (all : c.placements.all fun q => q.2.2.placeholder?.all test) {payload : Placeholder}
    (found : c.placeholder? i r = some payload) : test payload := by
  obtain ⟨g, found, role⟩ := placeholder?_eq_some.mp found
  have passes := List.all_eq_true.mp all _ (mem_placements.mpr found)
  rwa [role, Option.all_some] at passes

theorem at_iff : c.At g ↔ ∃ i r, c.cell? i r = some g := by
  simp only [cell?_eq_some]
  constructor
  · rintro ⟨column, inside, here⟩
    obtain ⟨i, found⟩ := List.mem_iff_getElem?.mp inside
    obtain ⟨r, placed⟩ := Column.exists_placed here
    exact ⟨i, r, column, found, placed⟩
  · rintro ⟨i, r, column, found, placed⟩
    exact ⟨column, List.mem_of_getElem? found, Column.mem_of_placed placed⟩

theorem getElem?_setCell : (c.setCell column row cell).columns[i]? =
    if column = i then c.columns[i]?.map (·.set row cell) else c.columns[i]? := by
  rw [setCell, List.getElem?_modify]
  split
  · rfl
  · simp

theorem cell?_setCell : (c.setCell column row cell).cell? i r =
    if column = i ∧ row = r ∧ row < (c.column i).length then cell else c.cell? i r := by
  by_cases here : column = i
  · subst here
    have slots : (c.setCell column row cell).column column = (c.column column).set row cell := by
      rw [Grid.column, Grid.column, getElem?_setCell, if_pos rfl]
      cases c.columns[column]? <;> rfl
    rw [Grid.cell?, slots, List.getElem?_set]
    by_cases same : row = r
    · subst same
      by_cases slot : row < (c.column column).length
      · simp [slot]
      · simp [slot, Grid.cell?]
    · simp [same, Grid.cell?]
  · rw [if_neg fun h => here h.1, Grid.cell?, Grid.column, getElem?_setCell, if_neg here]
    rfl

theorem cell?_growTo : (c.growTo count).cell? i r = c.cell? i r := by
  simp only [Grid.cell?, Grid.column, growTo, List.getElem?_append]
  split
  · rfl
  · next outside =>
    rw [List.getElem?_eq_none (Nat.le_of_not_lt outside), List.getElem?_replicate]
    split
    · simp only [Option.getD_some, Option.getD_none, List.getElem?_replicate, List.getElem?_nil]
      split <;> rfl
    · rfl

theorem pushColumn_eq_some : c.pushColumn = some out ↔
    Memory.machine.holdsColumn c.wires ∧ out = c.growTo (c.columns.length + 1) := by
  rw [pushColumn, Option.ite_none_right_eq_some, Option.some.injEq, @eq_comm _ out]

theorem cell?_pushColumn (pushed : c.pushColumn = some out) : out.cell? i r = c.cell? i r := by
  rw [(pushColumn_eq_some.mp pushed).2, cell?_growTo]

theorem covers_column_iff : Column.covers (c.column column) r ↔
    ∃ row g, c.cell? column row = some g ∧ r ∈ g.rowsAt row := by
  simp only [Column.covers_iff, Column.mem_placed, Grid.cell?, Option.join_eq_some_iff]

theorem cell?_clear : (c.clear column row).2.cell? i r =
    if column = i ∧ row = r then none else c.cell? i r := by
  rw [clear, cell?_setCell]
  by_cases here : column = i ∧ row = r
  · obtain ⟨rfl, rfl⟩ := here
    by_cases slot : row < (c.column column).length
    · simp [slot]
    · simp [slot, Grid.cell?]
  · rw [if_neg here, if_neg fun h => here ⟨h.1, h.2.1⟩]

/-! ## Placing -/

/-- A gate is placed on rows of the circuit that no other gate covers, one of them its own, in a slot
that can be reached. -/
theorem place_eq_ok : c.place column row gate = .ok out ↔
    (∀ r ∈ gate.rowsAt row, r < c.wires) ∧ row ∈ gate.rowsAt row ∧
      (∀ r ∈ gate.rowsAt row, ¬ Column.covers (c.column column) r) ∧ c.canReach column row ∧
        out = (c.growTo (column + 1)).setCell column row (some gate) := by
  unfold place
  constructor
  · intro placed
    cases listed : gate.listRows c.wires row with
    | none => simp [listed] at placed
    | some rows =>
      simp only [listed] at placed
      split at placed
      · cases placed
      · next inside =>
        split at placed
        · next own =>
          have own : row ∈ rows := by simpa using own
          cases Gate.eq_rowsAt_of_listRows listed own
          split at placed
          · cases placed
          · next free =>
            split at placed
            · next reach =>
              cases placed
              exact ⟨by simpa using inside, own, List.find?_eq_none.mp free, reach, rfl⟩
            · cases placed
        · split at placed <;> cases placed
  · rintro ⟨inside, own, free, reach, rfl⟩
    have below : (gate.rowsAt row).find? (c.wires ≤ ·) = none := by simpa using inside
    have off : (gate.rowsAt row).find? (Column.covers (c.column column)) = none :=
      List.find?_eq_none.mpr free
    simp [Gate.listRows_of_inside inside, below, own, off, reach]

/-- A slot can be reached in a column that is there, or where new columns are held. -/
theorem canReach_iff (split : ∀ slots ∈ c.columns, Column.Split c.wires slots)
    (below : row < c.wires) : c.canReach column row ↔
      column < c.columns.length ∨ Memory.machine.holdsColumn c.wires := by
  unfold canReach
  split
  · next slots found =>
    have inside := (List.getElem?_eq_some_iff.mp found).1
    have length := (split slots (List.mem_of_getElem? found)).length_eq
    simp [length, below, inside]
  · next missing =>
    rw [List.getElem?_eq_none_iff] at missing
    simp [Nat.not_lt.mpr missing]

theorem wires_place (h : c.place column row gate = .ok out) : out.wires = c.wires := by
  rw [(place_eq_ok.mp h).2.2.2.2]
  rfl

/-- What holds of all columns and of a blank one holds after columns are appended. -/
theorem forall_growTo {P : Column Gate → Prop} (all : ∀ slots ∈ c.columns, P slots)
    (blank : P (List.replicate c.wires none)) : ∀ slots ∈ (c.growTo count).columns, P slots := by
  intro slots h
  obtain old | new := List.mem_append.mp h
  · exact all slots old
  · rw [List.eq_of_mem_replicate new]
    exact blank

/-- What holds of all columns holds after a slot is set in one that keeps it. -/
theorem forall_setCell {P : Column Gate → Prop} (all : ∀ slots ∈ c.columns, P slots)
    (set : ∀ slots, c.columns[column]? = some slots → P (slots.set row cell)) :
    ∀ slots ∈ (c.setCell column row cell).columns, P slots := by
  intro slots h
  obtain ⟨i, found⟩ := List.mem_iff_getElem?.mp h
  rw [getElem?_setCell] at found
  split at found
  · next here =>
    subst here
    obtain ⟨before, isColumn, rfl⟩ := Option.map_eq_some_iff.mp found
    exact set before isColumn
  · exact all slots (List.mem_of_getElem? found)

theorem split_growTo (split : ∀ slots ∈ c.columns, Column.Split c.wires slots) :
    ∀ slots ∈ (c.growTo count).columns, Column.Split c.wires slots :=
  forall_growTo split (Column.split_blank c.wires)

theorem apart_growTo (apart : ∀ slots ∈ c.columns, Column.Apart c.wires slots) :
    ∀ slots ∈ (c.growTo count).columns, Column.Apart c.wires slots :=
  forall_growTo apart (Column.apart_blank c.wires)

/-- A circuit that is grown to a column has a slot there for every wire. -/
theorem length_column_growTo (split : ∀ slots ∈ c.columns, Column.Split c.wires slots) :
    ((c.growTo (column + 1)).column column).length = c.wires := by
  have here : column < (c.growTo (column + 1)).columns.length := by
    simp only [growTo, List.length_append, List.length_replicate]
    omega
  rw [Grid.column, List.getElem?_eq_getElem here, Option.getD_some]
  exact (split_growTo split _ (List.getElem_mem here)).length_eq

/-- A column of the grown circuit is the old one or blank. -/
theorem covers_growTo {slots : Column Gate} (found : (c.growTo count).columns[i]? = some slots) :
    Column.covers slots r ↔ Column.covers (c.column i) r := by
  have cells (row : Nat) (g : Gate) :
      (row, g) ∈ Column.placed slots ↔ (row, g) ∈ Column.placed (c.column i) := by
    have grown : (c.growTo count).cell? i row = c.cell? i row := cell?_growTo
    rw [Grid.cell?, Grid.column, found, Option.getD_some, Grid.cell?] at grown
    rw [Column.mem_placed, Column.mem_placed, ← Option.join_eq_some_iff, grown,
      Option.join_eq_some_iff]
  simp only [Column.covers_iff, cells]

theorem split_place (split : ∀ slots ∈ c.columns, Column.Split c.wires slots)
    (h : c.place column row gate = .ok out) :
    ∀ slots ∈ out.columns, Column.Split out.wires slots := by
  obtain ⟨inside, own, free, -, rfl⟩ := place_eq_ok.mp h
  refine forall_setCell (c := c.growTo (column + 1)) (split_growTo split) fun slots found => ?_
  refine (split_growTo split slots (List.mem_of_getElem? found)).set_some (inside row own) own
    fun r h => ?_
  rw [covers_growTo found]
  exact free r h

theorem apart_place (apart : ∀ slots ∈ c.columns, Column.Apart c.wires slots)
    (h : c.place column row gate = .ok out) :
    ∀ slots ∈ out.columns, Column.Apart out.wires slots := by
  obtain ⟨inside, own, free, -, rfl⟩ := place_eq_ok.mp h
  refine forall_setCell (c := c.growTo (column + 1)) (apart_growTo apart) fun slots found => ?_
  refine (apart_growTo apart slots (List.mem_of_getElem? found)).set_some inside own fun r h => ?_
  rw [covers_growTo found]
  exact free r h

theorem split_clear (split : ∀ slots ∈ c.columns, Column.Split c.wires slots) :
    ∀ slots ∈ (c.clear column row).2.columns, Column.Split (c.clear column row).2.wires slots :=
  forall_setCell split fun slots found => (split slots (List.mem_of_getElem? found)).set_none row

theorem apart_clear (apart : ∀ slots ∈ c.columns, Column.Apart c.wires slots) :
    ∀ slots ∈ (c.clear column row).2.columns, Column.Apart (c.clear column row).2.wires slots :=
  forall_setCell apart fun slots found => (apart slots (List.mem_of_getElem? found)).set_none row

/-- A placed gate stands in its slot, and the other slots stay. -/
theorem cell?_place (split : ∀ slots ∈ c.columns, Column.Split c.wires slots)
    (h : c.place column row gate = .ok out) :
    out.cell? i r = if column = i ∧ row = r then some gate else c.cell? i r := by
  obtain ⟨inside, own, -, -, rfl⟩ := place_eq_ok.mp h
  have slot : row < ((c.growTo (column + 1)).column column).length := by
    rw [length_column_growTo split]
    exact inside row own
  rw [cell?_setCell, cell?_growTo]
  by_cases same : column = i ∧ row = r
  · obtain ⟨rfl, rfl⟩ := same
    rw [if_pos ⟨rfl, rfl, slot⟩, if_pos ⟨rfl, rfl⟩]
  · rw [if_neg same, if_neg fun h => same ⟨h.1, h.2.1⟩]

theorem cell?_eq_none_of_place (split : ∀ slots ∈ c.columns, Column.Split c.wires slots)
    (h : c.place column row gate = .ok out) : c.cell? column row = none := by
  obtain ⟨-, own, free, -⟩ := place_eq_ok.mp h
  by_contra taken
  obtain ⟨other, found⟩ := Option.ne_none_iff_exists'.mp taken
  obtain ⟨slots, isColumn, placed⟩ := cell?_eq_some.mp found
  refine free row own (Column.covers_iff.mpr ⟨row, other, ?_, ?_⟩)
  · rwa [Grid.column, isColumn]
  · exact (split slots (List.mem_of_getElem? isColumn)).own_row row other placed

/-! ## Other numbers of wires -/

/-- On another number of wires a circuit holds the gates whose slots are left. -/
theorem cell?_resized {wires : Nat} :
    (c.resized wires).cell? i r = some g ↔ r < wires ∧ c.cell? i r = some g := by
  simp only [cell?_eq_some, resized, List.getElem?_map, Option.map_eq_some_iff]
  constructor
  · rintro ⟨_, ⟨slots, isColumn, rfl⟩, placed⟩
    obtain ⟨left, placed⟩ := Column.mem_placed_padTo.mp placed
    exact ⟨left, slots, isColumn, placed⟩
  · rintro ⟨left, slots, isColumn, placed⟩
    exact ⟨_, ⟨slots, isColumn, rfl⟩, Column.mem_placed_padTo.mpr ⟨left, placed⟩⟩

theorem split_resized (split : ∀ slots ∈ c.columns, Column.Split c.wires slots) (wires : Nat) :
    ∀ slots ∈ (c.resized wires).columns, Column.Split (c.resized wires).wires slots := by
  intro slots h
  obtain ⟨before, inside, rfl⟩ := List.mem_map.mp h
  exact (split before inside).padTo wires

theorem apart_resized (apart : ∀ slots ∈ c.columns, Column.Apart c.wires slots) {wires : Nat}
    (le : c.wires ≤ wires) :
    ∀ slots ∈ (c.resized wires).columns, Column.Apart (c.resized wires).wires slots := by
  intro slots h
  obtain ⟨before, inside, rfl⟩ := List.mem_map.mp h
  exact (apart before inside).padTo le

/-- More wires put empty slots below the others of every column. -/
theorem resized_eq (split : ∀ slots ∈ c.columns, Column.Split c.wires slots) (count : Nat) :
    c.resized (c.wires + count) =
      ⟨c.wires + count, c.columns.map fun slots => slots ++ List.replicate count none⟩ := by
  rw [resized, Grid.mk.injEq]
  refine ⟨rfl, List.map_congr_left fun slots h => ?_⟩
  have length := (split slots h).length_eq
  rw [Column.padTo, List.take_of_length_le (by omega), length, Nat.add_sub_cancel_left]

theorem appendWires_eq_some : c.appendWires count = some out ↔
    (c.columns = [] ∨ Memory.machine.holdsColumn ((c.wires + count) % wordLimit)) ∧
      out = c.resized ((c.wires + count) % wordLimit) := by
  dsimp only [appendWires]
  rw [Option.ite_none_right_eq_some, Option.some.injEq, @eq_comm _ out, Bool.or_eq_true,
    List.isEmpty_iff]

/-! ## The circuits that can be built -/

/-- The circuits that can be built, step by step or from columns that are checked. -/
inductive Built : Circuit → Prop
  | empty (wires : Nat) : Built (Grid.empty wires)
  | ofColumns {c : Circuit} {wires : Nat} {columns : List (Column Gate)} :
      Circuit.ofColumns wires columns = .ok c → Built c
  | place {c out : Circuit} {column row : Nat} {gate : Gate} :
      Built c → c.place column row gate = .ok out → Built out
  | clear {c : Circuit} (column row : Nat) : Built c → Built (c.clear column row).2
  | appendWires {c out : Circuit} {count : Nat} :
      Built c → c.appendWires count = some out → Built out
  | pushColumn {c out : Circuit} : Built c → c.pushColumn = some out → Built out

theorem ofColumns_eq_ok {wires : Nat} {columns : List (Column Gate)} :
    ofColumns wires columns = .ok c ↔ checkCircuit c = .ok () ∧ c = ⟨wires, columns⟩ := by
  simp only [ofColumns, Except.bind_eq_ok, pure, Except.pure, Except.ok.injEq]
  constructor
  · rintro ⟨_, valid, rfl⟩
    exact ⟨valid, rfl⟩
  · rintro ⟨valid, rfl⟩
    exact ⟨(), valid, rfl⟩

/-- **In a circuit that can be built no row belongs to two gates.** -/
theorem Built.split (built : c.Built) : ∀ slots ∈ c.columns, Column.Split c.wires slots := by
  induction built with
  | empty wires => exact fun column h => absurd h List.not_mem_nil
  | ofColumns made =>
    obtain ⟨valid, -⟩ := ofColumns_eq_ok.mp made
    exact fun column h => ((checkCircuit_eq_ok.mp valid).1 column h).apart.toSplit
  | place _ placed ih => exact split_place ih placed
  | clear column row _ ih => exact split_clear ih
  | appendWires _ appended ih =>
    rw [(appendWires_eq_some.mp appended).2]
    exact split_resized ih _
  | pushColumn _ pushed ih =>
    rw [(pushColumn_eq_some.mp pushed).2]
    exact split_growTo ih

/-- Whatever the checker accepts can be built. -/
theorem Built.of_valid (valid : c.validate = .ok ()) : c.Built :=
  .ofColumns (ofColumns_eq_ok.mpr ⟨valid, rfl⟩)

/-! ## Edits of well-formed circuits -/

/-- A circuit is well formed when its gates lie apart and every one of them covers no row twice and
is sound by itself. -/
theorem validate_eq_ok : c.validate = .ok () ↔
    (∀ slots ∈ c.columns, Column.Apart c.wires slots) ∧
      ∀ i row g, c.cell? i row = some g → (g.rowsAt row).Nodup ∧ checkGate g = .ok () := by
  rw [validate, checkCircuit_eq_ok]
  constructor
  · rintro ⟨fits, sound⟩
    refine ⟨fun slots h => (fits slots h).apart, fun i row g found => ?_⟩
    obtain ⟨slots, isColumn, placed⟩ := cell?_eq_some.mp found
    have inside := List.mem_of_getElem? isColumn
    exact ⟨(fits slots inside).rows_nodup placed, sound g (at_iff.mpr ⟨i, row, found⟩)⟩
  · rintro ⟨apart, each⟩
    refine ⟨fun slots h => (apart slots h).fits fun row g placed => ?_, fun g h => ?_⟩
    · obtain ⟨i, isColumn⟩ := List.mem_iff_getElem?.mp h
      exact (each i row g (cell?_eq_some.mpr ⟨slots, isColumn, placed⟩)).1
    · obtain ⟨i, row, found⟩ := at_iff.mp h
      exact (each i row g found).2

theorem validate_place (valid : c.validate = .ok ()) (nodup : (gate.rowsAt row).Nodup)
    (sound : checkGate gate = .ok ()) (h : c.place column row gate = .ok out) :
    out.validate = .ok () := by
  obtain ⟨apart, each⟩ := validate_eq_ok.mp valid
  refine validate_eq_ok.mpr ⟨apart_place apart h, fun i r g found => ?_⟩
  rw [cell?_place (fun slots h => (apart slots h).toSplit) h] at found
  split at found
  · next here =>
    cases found
    rw [← here.2]
    exact ⟨nodup, sound⟩
  · exact each i r g found

theorem validate_clear (valid : c.validate = .ok ()) (column row : Nat) :
    (c.clear column row).2.validate = .ok () := by
  obtain ⟨apart, each⟩ := validate_eq_ok.mp valid
  refine validate_eq_ok.mpr ⟨apart_clear apart, fun i r g found => ?_⟩
  rw [cell?_clear] at found
  split at found
  · cases found
  · exact each i r g found

theorem validate_pushColumn (valid : c.validate = .ok ()) (pushed : c.pushColumn = some out) :
    out.validate = .ok () := by
  obtain ⟨apart, each⟩ := validate_eq_ok.mp valid
  have found {i r : Nat} : out.cell? i r = c.cell? i r := cell?_pushColumn pushed
  obtain ⟨-, rfl⟩ := pushColumn_eq_some.mp pushed
  exact validate_eq_ok.mpr ⟨apart_growTo apart, fun i r g h => each i r g (found ▸ h)⟩

theorem validate_resized (valid : c.validate = .ok ()) {wires : Nat} (le : c.wires ≤ wires) :
    (c.resized wires).validate = .ok () := by
  obtain ⟨apart, each⟩ := validate_eq_ok.mp valid
  exact validate_eq_ok.mpr ⟨apart_resized apart le, fun i r g found =>
    each i r g (cell?_resized.mp found).2⟩

end Circuit

end CircuitGrid
