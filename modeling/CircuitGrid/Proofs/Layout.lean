import CircuitGrid.Circuit.Validity
import CircuitGrid.Proofs.Checked
import CircuitGrid.Proofs.Nesting
import Mathlib.Data.List.Nodup
import Mathlib.Data.List.Lattice
import Mathlib.Data.List.Pairwise

/-!
# The layout of well-formed circuits

A column fits a number of wires when it has a slot for each of them and its gates lie in their own
rows, inside the circuit and off one another's rows. The checker accepts a circuit exactly when its
columns fit and its gates are sound by themselves.

* `Gate.rowsAt_of_local`, `Gate.mem_rowsAt_of_placeholder`, `Gate.nodup_rowsAt_iff`: the rows of
  gates and placeholders;
* `Column.occupied`: the rows that the gates of a column cover;
* `Column.Fits`, `Column.Fits.unique`: no row of a fitting column belongs to two gates;
* `Column.Apart`: all of that but for gates that cover a row twice;
* `Column.Split`: what is left of that when the circuit may end anywhere;
* `checkCells_eq_ok`, `checkGate_eq_ok`, **`checkCircuit_eq_ok`**: what the checker accepts.
-/

namespace CircuitGrid

/-! ## Rows of gates -/

theorem Gate.placeholder?_eq_some {g : Gate} {p : Placeholder} :
    g.placeholder? = some p ↔ g.role = .nonLocal p := by
  unfold placeholder?
  split
  · next payload role => simp [role]
  · next other =>
    simp only [reduceCtorEq, false_iff]
    exact other p

/-- All gates but placeholders cover as many rows as they are tall. -/
theorem Gate.rowsAt_of_local {g : Gate} (role : ∀ p, g.role ≠ .nonLocal p) (row : Nat) :
    g.rowsAt row = List.range' row g.height := by
  unfold rowsAt
  split
  · next payload is => exact absurd is (role payload)
  · rfl

theorem Gate.role_of_placeholder?_eq_none {g : Gate} (flat : g.placeholder? = none)
    (p : Placeholder) : g.role ≠ .nonLocal p := by
  intro role
  rw [placeholder?_eq_some.mpr role] at flat
  cases flat

theorem Gate.mem_rowsAt_of_placeholder {g : Gate} {p : Placeholder}
    (role : g.placeholder? = some p) {row r : Nat} :
    r ∈ g.rowsAt row ↔ r = p.source ∨ r = p.target := by
  rw [rowsAt, placeholder?_eq_some.mp role]
  show r ∈ [min p.source p.target, max p.source p.target] ↔ _
  rw [List.mem_pair]
  omega

/-- All gates but placeholders whose ends are the same wire cover no row twice. -/
theorem Gate.nodup_rowsAt_iff {g : Gate} (row : Nat) : (g.rowsAt row).Nodup ↔
    ∀ p, g.placeholder? = some p → p.source ≠ p.target := by
  cases role : g.placeholder? with
  | some p =>
    have rows : g.rowsAt row = [min p.source p.target, max p.source p.target] := by
      rw [rowsAt, placeholder?_eq_some.mp role]
      rfl
    simp only [rows, List.nodup_cons, List.mem_singleton, List.not_mem_nil, not_false_eq_true,
      List.nodup_nil, and_true, Option.some.injEq, forall_eq']
    omega
  | none => simp [rowsAt_of_local (role_of_placeholder?_eq_none role), List.nodup_range']

theorem Gate.wordRows_eq_or (g : Gate) (row : Nat) :
    g.wordRows row = g.rowsAt row ∨ g.wordRows row = [] := by
  unfold wordRows
  split
  · exact .inl rfl
  · split
    · exact .inl rfl
    · exact .inr rfl

/-- The rows of a gate inside a circuit are listed. -/
theorem Gate.listRows_of_inside {g : Gate} {wires row : Nat}
    (inside : ∀ r ∈ g.rowsAt row, r < wires) : g.listRows wires row = some (g.rowsAt row) := by
  unfold listRows
  split
  · rfl
  · next below =>
    cases role : g.placeholder? with
    | some p => simp [rowsHeld, wordRows, placeholder?_eq_some.mp role]
    | none =>
      rw [rowsAt_of_local (role_of_placeholder?_eq_none role)] at inside
      have := g.height_pos
      have := inside (row + (g.height - 1)) (List.mem_range'_1.mpr (by omega))
      omega

/-- A gate whose rows are listed with its own one among them is listed with all of them. -/
theorem Gate.eq_rowsAt_of_listRows {g : Gate} {wires row : Nat} {rows : List Nat}
    (listed : g.listRows wires row = some rows) (own : row ∈ rows) : rows = g.rowsAt row := by
  unfold listRows at listed
  split_ifs at listed <;> cases listed
  · rfl
  · obtain all | none := g.wordRows_eq_or row
    · exact all
    · rw [none] at own
      cases own

/-! ## Columns -/

namespace Column

/-- The rows that the gates of a column cover, from a given row downwards. -/
def occupiedFrom (start : Nat) (column : Column Gate) : List Nat :=
  (placedFrom start column).flatMap fun p => p.2.rowsAt p.1

/-- The rows that the gates of a column cover. -/
def occupied (column : Column Gate) : List Nat := occupiedFrom 0 column

/-- The column has a slot for every wire, and its gates lie in their own rows, inside the circuit
and off one another's rows. -/
structure Fits (wires : Nat) (column : Column Gate) : Prop where
  length_eq : column.length = wires
  own_row : ∀ row g, (row, g) ∈ placed column → row ∈ g.rowsAt row
  in_range : ∀ row ∈ occupied column, row < wires
  nodup : (occupied column).Nodup

theorem mem_occupied {column : Column Gate} {r : Nat} :
    r ∈ occupied column ↔ ∃ row g, (row, g) ∈ placed column ∧ r ∈ g.rowsAt row := by
  simp [occupied, occupiedFrom, placed]

theorem exists_placed {column : Column Gate} {g : Gate} (h : some g ∈ column) :
    ∃ row, (row, g) ∈ placed column := by
  obtain ⟨row, slot⟩ := List.mem_iff_getElem?.mp h
  exact ⟨row, mem_placed.mpr slot⟩

theorem mem_of_placed {column : Column Gate} {row : Nat} {g : Gate}
    (h : (row, g) ∈ placed column) : some g ∈ column :=
  List.mem_of_getElem? (mem_placed.mp h)

theorem placed_unique {column : Column Gate} {row : Nat} {g h : Gate}
    (first : (row, g) ∈ placed column) (second : (row, h) ∈ placed column) : g = h := by
  rw [mem_placed] at first second
  rw [first] at second
  exact Option.some.inj (Option.some.inj second)

theorem le_of_mem_placedFrom {start : Nat} {column : Column Gate} {p : Nat × Gate}
    (h : p ∈ placedFrom start column) : start ≤ p.1 := (mem_placedFrom.mp h).1

theorem pairwise_placedFrom (start : Nat) (column : Column Gate) :
    (placedFrom start column).Pairwise fun p q => p.1 < q.1 := by
  induction column generalizing start with
  | nil => exact .nil
  | cons cell rest ih =>
    cases cell with
    | none => exact ih (start + 1)
    | some g => exact .cons (fun p h => le_of_mem_placedFrom h) (ih (start + 1))

theorem pairwise_placed (column : Column Gate) : (placed column).Pairwise fun p q => p.1 < q.1 :=
  pairwise_placedFrom 0 column

/-- **No row of a fitting column belongs to two gates.** -/
theorem Fits.unique {wires : Nat} {column : Column Gate} (fits : Fits wires column)
    {row row' r : Nat} {g g' : Gate} (first : (row, g) ∈ placed column)
    (second : (row', g') ∈ placed column) (covers : r ∈ g.rowsAt row)
    (covers' : r ∈ g'.rowsAt row') : (row, g) = (row', g') := by
  by_contra differ
  have apart := (List.nodup_flatMap.mp fits.nodup).2
  have : Std.Symm (Function.onFun List.Disjoint fun p : Nat × Gate => p.2.rowsAt p.1) :=
    ⟨fun _ _ h => List.Disjoint.symm h⟩
  exact apart.forall first second differ covers covers'

theorem Fits.rows_nodup {wires : Nat} {column : Column Gate} (fits : Fits wires column) {row : Nat}
    {g : Gate} (h : (row, g) ∈ placed column) : (g.rowsAt row).Nodup :=
  (List.nodup_flatMap.mp fits.nodup).1 _ h

/-- The column has a slot for every wire, its gates lie in their own rows, and no row belongs to two
of them. That says nothing about where the circuit ends. -/
structure Split (wires : Nat) (column : Column Gate) : Prop where
  length_eq : column.length = wires
  own_row : ∀ row g, (row, g) ∈ placed column → row ∈ g.rowsAt row
  one_each : ∀ row g row' g' r, (row, g) ∈ placed column → (row', g') ∈ placed column →
    r ∈ g.rowsAt row → r ∈ g'.rowsAt row' → row = row'

/-- The gates of the column also lie inside the circuit. That is less than fitting: a placeholder
whose ends are the same wire covers its row twice. -/
structure Apart (wires : Nat) (column : Column Gate) : Prop extends Split wires column where
  in_range : ∀ row g, (row, g) ∈ placed column → ∀ r ∈ g.rowsAt row, r < wires

theorem Split.unique {wires : Nat} {column : Column Gate} (split : Split wires column)
    {row row' r : Nat} {g g' : Gate} (first : (row, g) ∈ placed column)
    (second : (row', g') ∈ placed column) (covers : r ∈ g.rowsAt row)
    (covers' : r ∈ g'.rowsAt row') : (row, g) = (row', g') := by
  have same := split.one_each row g row' g' r first second covers covers'
  subst same
  rw [placed_unique first second]

theorem Split.row_lt {wires : Nat} {column : Column Gate} (split : Split wires column) {row : Nat}
    {g : Gate} (h : (row, g) ∈ placed column) : row < wires := by
  obtain ⟨lt, -⟩ := List.getElem?_eq_some_iff.mp (mem_placed.mp h)
  exact split.length_eq ▸ lt

theorem Fits.apart {wires : Nat} {column : Column Gate} (fits : Fits wires column) :
    Apart wires column where
  length_eq := fits.length_eq
  own_row := fits.own_row
  in_range row g inside r covers := fits.in_range r (mem_occupied.mpr ⟨row, g, inside, covers⟩)
  one_each _ _ _ _ _ first second covers covers' :=
    congrArg (·.1) (fits.unique first second covers covers')

/-- A column of gates that lie apart fits when no gate covers a row twice. -/
theorem Apart.fits {wires : Nat} {column : Column Gate} (apart : Apart wires column)
    (nodup : ∀ row g, (row, g) ∈ placed column → (g.rowsAt row).Nodup) : Fits wires column := by
  refine ⟨apart.length_eq, apart.own_row, fun r covered => ?_, List.nodup_flatMap.mpr ⟨?_, ?_⟩⟩
  · obtain ⟨row, g, inside, covers⟩ := mem_occupied.mp covered
    exact apart.in_range row g inside r covers
  · exact fun p inside => nodup p.1 p.2 inside
  · refine (pairwise_placed column).imp_of_mem fun {p q} hp hq below r covers covers' => ?_
    exact absurd (apart.one_each p.1 p.2 q.1 q.2 r hp hq covers covers') (Nat.ne_of_lt below)

theorem placedFrom_append_blank (start count : Nat) (column : Column Gate) :
    placedFrom start (column ++ List.replicate count none) = placedFrom start column := by
  induction column generalizing start with
  | nil =>
    induction count generalizing start with
    | zero => rfl
    | succ count ih => exact ih (start + 1)
  | cons cell rest ih =>
    cases cell with
    | none => exact ih (start + 1)
    | some g => exact congrArg ((start, g) :: ·) (ih (start + 1))

theorem placed_append_blank (count : Nat) (column : Column Gate) :
    placed (column ++ List.replicate count none) = placed column :=
  placedFrom_append_blank 0 count column

theorem Split.append_blank {wires : Nat} {column : Column Gate} (split : Split wires column)
    (count : Nat) : Split (wires + count) (column ++ List.replicate count none) where
  length_eq := by rw [List.length_append, List.length_replicate, split.length_eq]
  own_row := by
    rw [placed_append_blank]
    exact split.own_row
  one_each := by
    rw [placed_append_blank]
    exact split.one_each

theorem Apart.append_blank {wires : Nat} {column : Column Gate} (apart : Apart wires column)
    (count : Nat) : Apart (wires + count) (column ++ List.replicate count none) where
  toSplit := apart.toSplit.append_blank count
  in_range := by
    rw [placed_append_blank]
    exact fun row g inside r covers => Nat.lt_add_right count (apart.in_range row g inside r covers)

theorem nodup_of_rising {cells : List (Nat × Gate)} (rising : cells.Pairwise fun p q => p.1 < q.1) :
    cells.Nodup := by
  refine rising.imp fun {p q} below same => ?_
  rw [same] at below
  exact Nat.lt_irrefl _ below

/-- A test that one gate of a column passes finds that gate. -/
theorem filter_placed_eq_singleton {column : Column Gate} {test : Nat × Gate → Bool}
    {p : Nat × Gate} (inside : p ∈ placed column) (only : ∀ q ∈ placed column, test q ↔ q = p) :
    (placed column).filter test = [p] := by
  rw [← List.perm_singleton]
  have nodup := (nodup_of_rising (pairwise_placed column)).filter test
  rw [List.perm_ext_iff_of_nodup nodup (List.nodup_singleton p)]
  intro q
  rw [List.mem_filter, List.mem_singleton]
  constructor
  · exact fun ⟨h, passes⟩ => (only q h).mp passes
  · rintro rfl
    exact ⟨inside, (only q inside).mpr rfl⟩

/-- The gates of a column are the list of them by rising rows. -/
theorem placed_eq {column : Column Gate} {cells : List (Nat × Gate)}
    (rising : cells.Pairwise fun p q => p.1 < q.1)
    (mem : ∀ row g, (row, g) ∈ cells ↔ (row, g) ∈ placed column) : placed column = cells := by
  refine List.Perm.eq_of_pairwise ?_ (pairwise_placed column) rising ?_
  · exact fun p q _ _ below above => absurd (Nat.lt_trans below above) (Nat.lt_irrefl _)
  · rw [List.perm_ext_iff_of_nodup (nodup_of_rising (pairwise_placed column))
      (nodup_of_rising rising)]
    exact fun p => (mem p.1 p.2).symm

end Column

/-- The columns of a grid around one of them. -/
theorem Grid.columns_eq {γ : Type} {c : Grid γ} {i : Nat} {column : Column γ}
    (found : c.columns[i]? = some column) :
    c.columns = c.columns.take i ++ column :: c.columns.drop (i + 1) := by
  obtain ⟨lt, here⟩ := List.getElem?_eq_some_iff.mp found
  rw [← here, List.getElem_cons_drop, List.take_append_drop]

/-! ## What the checker accepts -/

theorem coverRows_eq_ok {wires column : Nat} {gate : String} {rows covered covered' : List Nat} :
    coverRows wires column gate covered rows = .ok covered' ↔
      (∀ r ∈ rows, r < wires) ∧ rows.Nodup ∧ rows.Disjoint covered ∧
        covered' = rows.reverse ++ covered := by
  induction rows generalizing covered with
  | nil => simp [coverRows, eq_comm]
  | cons row rest ih =>
    rw [coverRows]
    split
    · next outside => simp; omega
    · next inside =>
      split
      · next taken => simp_all
      · next free =>
        rw [ih]
        simp only [List.contains_eq_mem, decide_eq_true_eq] at free
        simp only [List.mem_cons, List.nodup_cons, List.disjoint_cons_left,
          List.disjoint_cons_right, List.reverse_cons, List.append_assoc, List.singleton_append]
        grind

variable {wires index row : Nat} {covered : List Nat}

/-- A gate that covers its own row and other free rows of the circuit is checked by itself, and then
the cells below are with these rows covered. -/
theorem checkCells_cons_of_free {g : Gate} {rest : Column Gate} (own : row ∈ g.rowsAt row)
    (inside : ∀ r ∈ g.rowsAt row, r < wires) (nodup : (g.rowsAt row).Nodup)
    (off : (g.rowsAt row).Disjoint covered) :
    checkCells wires index covered row (some g :: rest) = (do
      checkGate g
      checkCells wires index ((g.rowsAt row).reverse ++ covered) (row + 1) rest) := by
  rw [checkCells, Gate.listRows_of_inside inside]
  dsimp only
  rw [if_pos (by simpa using own), coverRows_eq_ok.mpr ⟨inside, nodup, off, rfl⟩, Except.ok_bind]

theorem checkCells_cons_eq_ok {g : Gate} {rest : Column Gate} :
    checkCells wires index covered row (some g :: rest) = .ok () ↔
      row ∈ g.rowsAt row ∧ (∀ r ∈ g.rowsAt row, r < wires) ∧ (g.rowsAt row).Nodup ∧
        (g.rowsAt row).Disjoint covered ∧ checkGate g = .ok () ∧
          checkCells wires index ((g.rowsAt row).reverse ++ covered) (row + 1) rest = .ok () := by
  constructor
  · intro accepted
    rw [checkCells] at accepted
    cases listed : g.listRows wires row with
    | none =>
      rw [listed] at accepted
      cases accepted
    | some rows =>
      rw [listed] at accepted
      dsimp only at accepted
      split at accepted
      · next contained =>
        have own : row ∈ rows := by simpa using contained
        cases Gate.eq_rowsAt_of_listRows listed own
        obtain ⟨_, covers, accepted⟩ := Except.bind_eq_ok.mp accepted
        obtain ⟨inRange, nodup, off, rfl⟩ := coverRows_eq_ok.mp covers
        obtain ⟨_, sound, accepted⟩ := Except.bind_eq_ok.mp accepted
        exact ⟨own, inRange, nodup, off, sound, accepted⟩
      · cases accepted
  · rintro ⟨own, inside, nodup, off, sound, accepted⟩
    rw [checkCells_cons_of_free own inside nodup off, sound]
    exact accepted

/-- The checker accepts the cells of a column from a row downwards exactly when their gates lie in
their own rows, inside the circuit, off the covered rows and one another's, and are sound. -/
theorem checkCells_eq_ok {cells : Column Gate} :
    checkCells wires index covered row cells = .ok () ↔
      (∀ r g, (r, g) ∈ Column.placedFrom row cells → r ∈ g.rowsAt r ∧ checkGate g = .ok ()) ∧
        (∀ r ∈ Column.occupiedFrom row cells, r < wires) ∧
          (Column.occupiedFrom row cells).Nodup ∧
            (Column.occupiedFrom row cells).Disjoint covered := by
  induction cells generalizing row covered with
  | nil => simp [checkCells, Column.placedFrom, Column.occupiedFrom]
  | cons cell rest ih =>
    cases cell with
    | none =>
      rw [checkCells, ih]
      simp only [Column.occupiedFrom, Column.placedFrom]
    | some g =>
      have occupied : Column.occupiedFrom row (some g :: rest) =
          g.rowsAt row ++ Column.occupiedFrom (row + 1) rest := rfl
      rw [checkCells_cons_eq_ok, ih, occupied]
      simp only [Column.placedFrom, List.mem_cons, Prod.mk.injEq, List.mem_append,
        List.nodup_append', List.disjoint_append_left, List.disjoint_append_right,
        List.disjoint_reverse_right]
      constructor
      · rintro ⟨own, inRange, nodup, off, sound, gates, inRange', nodup', apart, off'⟩
        refine ⟨?_, ?_, ⟨nodup, nodup', apart.symm⟩, off, off'⟩
        · rintro r h (⟨rfl, rfl⟩ | inside)
          · exact ⟨own, sound⟩
          · exact gates r h inside
        · rintro r (h | h)
          · exact inRange r h
          · exact inRange' r h
      · rintro ⟨gates, inRange, ⟨nodup, nodup', apart⟩, off, off'⟩
        obtain ⟨own, sound⟩ := gates row g (.inl ⟨rfl, rfl⟩)
        refine ⟨own, fun r h => inRange r (.inl h), nodup, off, sound, ?_, ?_, nodup',
          apart.symm, off'⟩
        · exact fun r h inside => gates r h (.inr inside)
        · exact fun r h => inRange r (.inr h)

/-- The checker accepts a gate exactly when its matrix is sound and its circuit fits into it. -/
theorem checkGate_eq_ok {g : Gate} :
    checkGate g = .ok () ↔ checkMatrix g.id g.height g.matrix = .ok () ∧
      ∀ body, g.body? = some body → body.wires ≤ g.height ∧ checkCircuit body = .ok () := by
  cases g with
  | mk id title role height exports matrix entangler inert height_pos =>
    cases role with
    | nested body =>
      simp only [checkGate, Gate.body?, Option.some.injEq, forall_eq', Except.andThen_eq_ok]
      split
      · next tall => simp [throw, throwThe, MonadExceptOf.throw, Nat.not_le_of_lt tall]
      · next fits => simp [Nat.le_of_not_lt fits]
    | _ => simp [checkGate, Gate.body?, pure, Except.pure, Except.andThen_eq_ok]

/-- **The checker accepts a circuit exactly when its columns fit and its gates are sound.** -/
theorem checkCircuit_eq_ok {c : Circuit} :
    checkCircuit c = .ok () ↔
      (∀ column ∈ c.columns, Column.Fits c.wires column) ∧ ∀ g, c.At g → checkGate g = .ok () := by
  obtain ⟨wires, columns⟩ := c
  simp only [checkCircuit, Circuit.At]
  generalize 0 = index
  induction columns generalizing index with
  | nil => simp [checkColumns]
  | cons column rest ih =>
    rw [checkColumns]
    split
    · next ragged =>
      simp only [throw, throwThe, MonadExceptOf.throw, reduceCtorEq, false_iff]
      intro h
      exact ragged (h.1 column List.mem_cons_self).length_eq
    · next even =>
      simp only [Decidable.not_not] at even
      simp only [Except.andThen_eq_ok, checkCells_eq_ok, ih, List.mem_cons]
      constructor
      · rintro ⟨⟨gates, inRange, nodup, _⟩, fits, sound⟩
        refine ⟨?_, ?_⟩
        · rintro other (rfl | inside)
          · exact ⟨even, fun row g h => (gates row g h).1, inRange, nodup⟩
          · exact fits other inside
        · rintro g ⟨other, rfl | inside, h⟩
          · obtain ⟨row, placed⟩ := Column.exists_placed h
            exact (gates row g placed).2
          · exact sound g ⟨other, inside, h⟩
      · rintro ⟨fits, sound⟩
        have first := fits column (.inl rfl)
        refine ⟨⟨fun r g h => ⟨first.own_row r g h, ?_⟩, first.in_range, first.nodup, ?_⟩, ?_, ?_⟩
        · exact sound g ⟨column, .inl rfl, Column.mem_of_placed h⟩
        · exact List.disjoint_nil_right _
        · exact fun other inside => fits other (.inr inside)
        · rintro g ⟨other, inside, h⟩
          exact sound g ⟨other, .inr inside, h⟩

end CircuitGrid
