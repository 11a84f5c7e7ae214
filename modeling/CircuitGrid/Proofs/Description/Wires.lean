import CircuitGrid.Proofs.Description.Decoding
import CircuitGrid.Proofs.Editing
import Mathlib.Algebra.Group.Nat.Defs

/-!
# The number of wires of a description

A description may give the number of wires of its circuit. Without one the circuit has just the
wires that its cells and the rows of its gates need. With a larger number the same circuit has
further wires below, as long as its columns can be held, and with a smaller one the last wire that
is needed is out of range.

* `Sheet.onWires`: the description with a number of wires;
* `Gate.Within`, `Sheet.LiesOn`: what lies on a number of wires;
* `layOut_none_eq_ok`, `layOut_some_eq`: columns laid out without and with a number of wires;
* **`Sheet.decode_onWires`**: what a description means with each number of wires.
-/

namespace CircuitGrid

/-- The description with a number of wires. -/
def Sheet.onWires (d : Description) (wires : Nat) : Description := { d with wires := some wires }

/-- A gate whose top cell stands in a row lies on a number of wires: its height and the circuit in
it fit below the row, and the two ends of a placeholder are wires. -/
structure Gate.Within (wires row : Nat) (g : Gate) : Prop where
  tall : (∀ p, g.role ≠ .nonLocal p) → row + g.height ≤ wires
  nested : ∀ body, g.body? = some body → row + body.wires ≤ wires
  ends : ∀ p, g.role = .nonLocal p → p.source < wires ∧ p.target < wires

/-- The cells of a description and the gates of its circuit lie on a number of wires. -/
structure Sheet.LiesOn (d : Description) (c : Circuit) (wires : Nat) : Prop where
  cells : ∀ cells ∈ d.columns, cells.length ≤ wires
  gates : ∀ i row g, c.cell? i row = some g → g.Within wires row

/-! ## Padded columns -/

namespace Column

variable {column : Column Gate} {wires wires' : Nat}

theorem padTo_eq_append (short : column.length ≤ wires) :
    padTo column wires = column ++ List.replicate (wires - column.length) none := by
  rw [padTo, List.take_of_length_le short]

theorem placed_padTo (short : column.length ≤ wires) :
    placed (padTo column wires) = placed column := by
  rw [padTo_eq_append short, placed_append_blank]

theorem padTo_padTo (short : column.length ≤ wires) (more : wires ≤ wires') :
    padTo (padTo column wires) wires' = padTo column wires' := by
  have length : (padTo column wires).length = wires := by
    rw [padTo_eq_append short, List.length_append, List.length_replicate]
    omega
  rw [padTo_eq_append (length.trans_le more), length, padTo_eq_append short,
    padTo_eq_append (Nat.le_trans short more), List.append_assoc, List.replicate_append_replicate]
  congr 2
  omega

end Column

/-! ## Columns laid out -/

section

variable {m : Memory} {columns : List (Column Gate)} {c : Circuit} {wires : Nat}

theorem layOut_none_eq_ok : layOut m columns none = .ok c ↔
    (columns.isEmpty || m.holdsColumn (reachOf columns)) ∧
      c = ⟨reachOf columns, columns.map fun column => Column.padTo column (reachOf columns)⟩ ∧
      checkCircuit c = .ok () := by
  have same : layOut m columns none = layOut m columns (some (reachOf columns)) := rfl
  rw [same, layOut_eq_ok, and_iff_right (Nat.le_refl _)]

theorem length_le_reachOf {column : Column Gate} (inside : column ∈ columns) :
    column.length ≤ reachOf columns :=
  (Column.reach_le_iff.mp (reachOf_le_iff.mp (Nat.le_refl _) column inside)).1

/-- The rows that the gates of a column cover are below the reach of all columns, once these are
well formed there. -/
theorem lt_reachOf (free : layOut m columns none = .ok c) {column : Column Gate}
    (inside : column ∈ columns) : ∀ row ∈ Column.occupied column, row < reachOf columns := by
  obtain ⟨-, rfl, valid⟩ := layOut_none_eq_ok.mp free
  have fits := (checkCircuit_eq_ok.mp valid).1 _ (List.mem_map_of_mem inside)
  intro row covered
  refine fits.in_range row ?_
  rw [Column.mem_occupied] at covered ⊢
  rwa [Column.placed_padTo (length_le_reachOf inside)]

/-- With a number of wires the columns are laid out on further wires, which panics where they are
not held, or refused for the last wire that they need. -/
theorem layOut_some_eq (free : layOut .machine columns none = .ok c) (word : wires < wordLimit) :
    layOut .machine columns (some wires) =
      if c.wires ≤ wires then
        match c.appendWires (wires - c.wires) with
        | some out => .ok out
        | none => .error .panic
      else .error (.fault (.wireOutOfRange (c.wires - 1) wires)) := by
  obtain ⟨-, rfl, valid⟩ := layOut_none_eq_ok.mp free
  dsimp only
  by_cases enough : reachOf columns ≤ wires
  · have total : (reachOf columns + (wires - reachOf columns)) % wordLimit = wires := by
      rw [Nat.add_sub_cancel' enough, Nat.mod_eq_of_lt word]
    rw [if_pos enough, Circuit.appendWires]
    dsimp only
    rw [total, List.isEmpty_map]
    by_cases held : columns.isEmpty || Memory.machine.holdsColumn wires
    · rw [if_pos held]
      refine layOut_eq_ok.mpr ⟨enough, held, ?_, Circuit.validate_resized valid enough⟩
      rw [Circuit.resized, Grid.mk.injEq, List.map_map]
      refine ⟨rfl, List.map_congr_left fun column inside => ?_⟩
      exact Column.padTo_padTo (length_le_reachOf inside) enough
    · rw [if_neg held, layOut, Option.getD_some, if_neg (Nat.not_lt.mpr enough), if_neg held]
  · rw [if_neg enough, layOut, Option.getD_some, if_pos (Nat.lt_of_not_le enough)]

end

/-! ## Gates on wires -/

/-- In a well-formed circuit a gate lies on a number of wires when its rows do. -/
theorem Gate.within_iff {g : Gate} {row wires : Nat} (sound : checkGate g = .ok ()) :
    g.Within wires row ↔ ∀ r ∈ g.rowsAt row, r < wires := by
  have fits := (checkGate_eq_ok.mp sound).2
  have positive := g.height_pos
  cases role : g.placeholder? with
  | some p =>
    have isRole := Gate.placeholder?_eq_some.mp role
    have flat : g.body? = none := Gate.body?_eq_none (by simp [isRole])
    simp only [Gate.mem_rowsAt_of_placeholder role]
    constructor
    · rintro ⟨-, -, ends⟩ r (rfl | rfl)
      · exact (ends p isRole).1
      · exact (ends p isRole).2
    · intro all
      refine ⟨fun none => absurd isRole (none p), fun body nested => ?_, fun q isRole' => ?_⟩
      · rw [flat] at nested
        cases nested
      · rw [isRole, Role.nonLocal.injEq] at isRole'
        exact isRole' ▸ ⟨all _ (.inl rfl), all _ (.inr rfl)⟩
  | none =>
    have isLocal := Gate.role_of_placeholder?_eq_none role
    simp only [Gate.rowsAt_of_local isLocal, List.mem_range'_1]
    constructor
    · rintro ⟨tall, -, -⟩ r below
      have := tall isLocal
      omega
    · intro all
      have last := all (row + g.height - 1) (by omega)
      refine ⟨fun _ => by omega, fun body nested => ?_, fun p isRole => absurd isRole (isLocal p)⟩
      have := (fits body nested).1
      omega

theorem layOut_none_cell? {m : Memory} {columns : List (Column Gate)} {c : Circuit}
    (free : layOut m columns none = .ok c) {i row : Nat} {g : Gate} :
    c.cell? i row = some g ↔
      ∃ column, columns[i]? = some column ∧ (row, g) ∈ Column.placed column := by
  obtain ⟨-, rfl, -⟩ := layOut_none_eq_ok.mp free
  have padded {column : Column Gate} (isColumn : columns[i]? = some column) :=
    Column.placed_padTo (length_le_reachOf (List.mem_of_getElem? isColumn))
  simp only [Circuit.cell?_eq_some, List.getElem?_map, Option.map_eq_some_iff]
  constructor
  · rintro ⟨_, ⟨column, isColumn, rfl⟩, placed⟩
    exact ⟨column, isColumn, padded isColumn ▸ placed⟩
  · rintro ⟨column, isColumn, placed⟩
    exact ⟨_, ⟨column, isColumn, rfl⟩, (padded isColumn).symm ▸ placed⟩

/-- **A description lies on just as many wires as its columns need.** -/
theorem Sheet.liesOn_iff {m : Memory} {scope : Scope} {d : Description}
    {columns : List (Column Gate)} {c : Circuit}
    (resolved : resolveColumns m scope d.columns = .ok columns)
    (free : layOut m columns none = .ok c) (wires : Nat) : d.LiesOn c wires ↔ c.wires ≤ wires := by
  obtain ⟨-, isCircuit, valid⟩ := layOut_none_eq_ok.mp free
  have within (i row : Nat) (g : Gate) (found : c.cell? i row = some g) :
      g.Within wires row ↔ ∀ r ∈ g.rowsAt row, r < wires :=
    Gate.within_iff ((checkCircuit_eq_ok.mp valid).2 g (Circuit.at_iff.mpr ⟨i, row, found⟩))
  have resolved := (resolveColumns_eq_ok.mp resolved).1
  rw [congrArg Grid.wires isCircuit]
  constructor
  · rintro ⟨slots, gates⟩
    refine reachOf_le_iff.mpr fun column inside => Column.reach_le ?_ fun r occupied => ?_
    · obtain ⟨written, isWritten, same⟩ := exists_left_of_mem resolved inside
      exact same.length_eq ▸ slots written isWritten
    · obtain ⟨row, g, placed, covers⟩ := Column.mem_occupied.mp occupied
      obtain ⟨i, isColumn⟩ := List.mem_iff_getElem?.mp inside
      have found := (layOut_none_cell? free).mpr ⟨column, isColumn, placed⟩
      exact (within i row g found).mp (gates i row g found) r covers
  · intro enough
    refine ⟨fun written isWritten => ?_, fun i row g found => (within i row g found).mpr ?_⟩
    · obtain ⟨column, inside, same⟩ := exists_right_of_mem resolved isWritten
      exact same.length_eq ▸ (length_le_reachOf inside).trans enough
    · obtain ⟨column, isColumn, placed⟩ := (layOut_none_cell? free).mp found
      intro r covers
      have below := lt_reachOf free (List.mem_of_getElem? isColumn) r
        (Column.mem_occupied.mpr ⟨row, g, placed, covers⟩)
      exact Nat.lt_of_lt_of_le below enough

/-! ## Descriptions -/

/-- **What a description means with each number of wires**, when it has a circuit without one. From
the number of wires of that circuit on, it is the circuit with further wires below; where its
columns cannot be held there, reading it panics. With fewer wires, the last of its wires is out of
range. So the circuit has the least number of wires that all cells and gates lie on. -/
theorem Sheet.decode_onWires {d : Description} {outer : Scope} {c : Circuit}
    (free : d.wires = none) (decoded : Sheet.decodeIn .machine outer d = .ok c) {wires : Nat}
    (word : wires < wordLimit) :
    Sheet.decodeIn .machine outer (d.onWires wires) =
        (if c.wires ≤ wires then
          match c.appendWires (wires - c.wires) with
          | some out => .ok out
          | none => .error .panic
        else .error (.fault (.wireOutOfRange (c.wires - 1) wires))) ∧
      (c.wires ≤ wires → (c.appendWires (wires - c.wires) = none ↔
        c.columns ≠ [] ∧ 2 ^ 63 ≤ cellBytes * wires)) ∧
      (d.LiesOn c wires ↔ c.wires ≤ wires) := by
  obtain ⟨cells, definitions, given⟩ := d
  cases free
  obtain ⟨scope, defined, decoded⟩ := Except.bind_eq_ok.mp decoded
  obtain ⟨columns, resolved, laidOut⟩ := Except.bind_eq_ok.mp decoded
  refine ⟨?_, fun enough => ?_, liesOn_iff resolved laidOut wires⟩
  · rw [onWires, Sheet.decodeIn, defined, Except.ok_bind, resolved, Except.ok_bind,
      layOut_some_eq laidOut word]
  · have total : (c.wires + (wires - c.wires)) % wordLimit = wires := by
      rw [Nat.add_sub_cancel' enough, Nat.mod_eq_of_lt word]
    simp only [Circuit.appendWires, total, Memory.holdsColumn]
    simp [Memory.holds_machine]

/-- A nested circuit of three wires, a column of four cells, and a placeholder from outside whose
far end lies deeper than both. -/
theorem Sheet.decode_onWires_far_end :
    let outer : Scope := [("P", .nonLocal "P" ⟨.cx, 4, 0, (7, 8)⟩)]
    let inner : Description := ⟨[[.gate "X"], [.empty, .empty, .gate "H"]], [], none⟩
    let n : Definition := ⟨"N", none, none, none, some inner, none, none, none⟩
    let d : Description :=
      ⟨[[.gate "P"], [.empty, .gate "N"], [.gate "CNOT", .empty, .empty, .empty], []], [n], none⟩
    ∃ c out, Sheet.decodeIn .machine outer d = .ok c ∧ c.appendWires 2 = some out ∧
      Sheet.decodeIn .machine outer (d.onWires 7) = .ok out ∧
      Sheet.decodeIn .machine outer (d.onWires 4) = .error (.fault (.wireOutOfRange 4 4)) ∧
      ¬ d.LiesOn c 4 := by
  intro outer inner n d
  have checked : (Sheet.decodeIn .machine outer d).toOption.any (fun c => decide (c.wires = 5)) =
      true := by
    decide +kernel
  obtain ⟨c, found, five⟩ := (Option.any_eq_true _ _).mp checked
  have decoded := Except.toOption_eq_some.mp found
  have five := of_decide_eq_true five
  obtain ⟨more, held, -⟩ := decode_onWires rfl decoded (show 7 < wordLimit by decide)
  obtain ⟨fewer, -, liesOn⟩ := decode_onWires rfl decoded (show 4 < wordLimit by decide)
  rw [five] at more held fewer liesOn
  have enough : c.appendWires 2 ≠ none := fun lost =>
    absurd ((held (by decide)).mp lost).2 (by decide)
  obtain ⟨out, appended⟩ := Option.ne_none_iff_exists'.mp enough
  refine ⟨c, out, decoded, appended, ?_, fewer, fun lies => absurd (liesOn.mp lies) (by decide)⟩
  rw [more, if_pos (by decide), show 7 - 5 = 2 from rfl, appended]

/-- **Not every number of wires from there on is possible**: a column with a slot for each of many
wires is more than can be held. -/
theorem Sheet.not_decode_onWires :
    ¬ ∀ (d : Description) (outer : Scope) (c : Circuit) (wires : Nat), d.wires = none →
      Sheet.decodeIn .machine outer d = .ok c → wires < wordLimit →
        ((∃ out, Sheet.decodeIn .machine outer (d.onWires wires) = .ok out) ↔ c.wires ≤ wires) := by
  intro all
  let d : Description := ⟨[[.gate "X"]], [], none⟩
  have decodes : ((Sheet.decodeIn .machine [] d).toOption.any fun c => decide (c.wires = 1)) := by
    decide +kernel
  obtain ⟨c, found, one⟩ := (Option.any_eq_true _ _).mp decodes
  have one : c.wires = 1 := of_decide_eq_true one
  obtain ⟨out, decoded⟩ := (all d [] c (2 ^ 62) rfl (Except.toOption_eq_some.mp found)
    (by decide)).mpr (by rw [one]; decide)
  have panics : (Sheet.decodeIn .machine [] (d.onWires (2 ^ 62))).toOption.isNone := by
    decide +kernel
  rw [decoded] at panics
  cases panics

end CircuitGrid
