import CircuitGrid.Description.Decode
import CircuitGrid.Description.Encode
import CircuitGrid.Proofs.Checked
import CircuitGrid.Proofs.Layout
import Mathlib.Data.List.TakeWhile

/-!
# The circuit of a description

Definitions are taken one after the other, each in the scope of those before it. The cells of a
column are looked up in the scope of all of them, and slots that were left out at its end are empty.

* `Definition.Decoded`, `Scope.extend`: definitions taken in order;
* `resolveColumns_eq_ok`, `layOut_eq_ok`: what cells stand for and where columns are laid out;
* `Column.reach_le_iff`, `reachOf_le_iff`: the wires that columns need;
* **`Sheet.decode_eq_ok`**: the circuit of a sheet whose columns were written from full ones.
-/

namespace CircuitGrid

/-! ## Definitions in order -/

/-- The gates of definitions taken in order, each in the scope of those before it. -/
inductive Definition.Decoded : Scope → List Definition → List Gate → Prop
  | nil {scope : Scope} : Decoded scope [] []
  | cons {scope : Scope} {d : Definition} {g : Gate} {ds : List Definition} {gs : List Gate} :
      d.decode scope = .ok g → Decoded ((d.id, g) :: scope) ds gs → Decoded scope (d :: ds) (g :: gs)

/-- The scope after definitions with the given gates. -/
def Scope.extend : Scope → List Definition → List Gate → Scope
  | scope, d :: ds, g :: gs => extend ((d.id, g) :: scope) ds gs
  | scope, _, _ => scope

theorem Definition.decodeAll_eq_ok {scope scope' : Scope} {ds : List Definition} :
    Definition.decodeAllIn .unlimited scope ds = .ok scope' ↔
      ∃ gs, Decoded scope ds gs ∧ scope' = scope.extend ds gs := by
  induction ds generalizing scope with
  | nil =>
    rw [Definition.decodeAllIn]
    constructor
    · intro done
      cases done
      exact ⟨[], .nil, rfl⟩
    · rintro ⟨gs, decoded, rfl⟩
      cases decoded
      rfl
  | cons d ds ih =>
    rw [Definition.decodeAllIn, Except.bind_eq_ok]
    constructor
    · rintro ⟨g, first, rest⟩
      obtain ⟨gs, decoded, rfl⟩ := ih.mp rest
      exact ⟨g :: gs, .cons first decoded, rfl⟩
    · rintro ⟨_, decoded, rfl⟩
      cases decoded with
      | cons first rest => exact ⟨_, first, ih.mpr ⟨_, rest, rfl⟩⟩

namespace Scope

variable {scope : Scope} {ds : List Definition} {gs : List Gate} {id : String}

theorem lookup_extend_of_not_mem (undefined : id ∉ ds.map (·.id)) :
    (scope.extend ds gs).lookup id = scope.lookup id := by
  induction ds generalizing scope gs with
  | nil => rfl
  | cons d ds ih =>
    rw [List.map_cons, List.mem_cons, not_or] at undefined
    cases gs with
    | nil => rfl
    | cons g gs =>
      rw [extend, ih undefined.2, List.lookup_cons, beq_false_of_ne undefined.1]

theorem lookup_extend_of_mem (nodup : (ds.map (·.id)).Nodup) {d : Definition} {g : Gate}
    (inside : (d, g) ∈ ds.zip gs) : (scope.extend ds gs).lookup d.id = some g := by
  induction ds generalizing scope gs with
  | nil => cases inside
  | cons d' ds ih =>
    rw [List.map_cons, List.nodup_cons] at nodup
    cases gs with
    | nil => cases inside
    | cons g' gs =>
      rw [extend]
      rcases List.mem_cons.mp inside with first | later
      · cases first
        rw [lookup_extend_of_not_mem nodup.1, List.lookup_cons_self]
      · exact ih nodup.2 later

end Scope

/-! ## Cells -/

/-- A cell stands for what is in a slot. -/
inductive Cell.Resolves (scope : Scope) : Cell → Option Gate → Prop
  | empty : Resolves scope .empty none
  | gate {id : String} {g : Gate} : scope.resolve id = .ok g → Resolves scope (.gate id) (some g)

/-- The ids of the gates of a column stand for those of another one, slot by slot. -/
def Column.Resolved (scope : Scope) (column column' : Column Gate) : Prop :=
  List.Forall₂ (Option.Rel fun g g' => scope.resolve g.id = .ok g') column column'

@[simp] theorem Gate.rowsHeld_unlimited (g : Gate) (row : Nat) :
    g.rowsHeld .unlimited row = true := by
  unfold rowsHeld
  split <;> simp

/-- The cells of a column stand for gates whose rows can be listed. -/
theorem resolveCells_eq_ok {m : Memory} {scope : Scope} {row : Nat} {cells : List Cell}
    {column : Column Gate} : resolveCells m scope row cells = .ok column ↔
      List.Forall₂ (Cell.Resolves scope) cells column ∧
        ∀ p ∈ Column.placedFrom row column, p.2.rowsHeld m p.1 := by
  induction cells generalizing row column with
  | nil => cases column <;> simp [resolveCells, Column.placedFrom]
  | cons cell rest ih =>
    cases cell with
    | empty =>
      rw [resolveCells, Except.bind_eq_ok]
      constructor
      · rintro ⟨others, resolved, done⟩
        cases done
        obtain ⟨resolves, held⟩ := ih.mp resolved
        exact ⟨.cons .empty resolves, held⟩
      · rintro ⟨_ | ⟨_ | _, others⟩, held⟩
        exact ⟨_, ih.mpr ⟨others, held⟩, rfl⟩
    | gate id =>
      simp only [resolveCells, Except.bind_eq_ok]
      constructor
      · rintro ⟨g, first, step⟩
        split at step
        · next listed =>
          obtain ⟨others, resolved, done⟩ := Except.bind_eq_ok.mp step
          cases done
          obtain ⟨resolves, held⟩ := ih.mp resolved
          exact ⟨.cons (.gate first) resolves, List.forall_mem_cons.mpr ⟨listed, held⟩⟩
        · cases step
      · rintro ⟨_ | ⟨_ | first, others⟩, held⟩
        obtain ⟨listed, held⟩ := List.forall_mem_cons.mp held
        refine ⟨_, first, ?_⟩
        rw [if_pos listed, ih.mpr ⟨others, held⟩]
        rfl

theorem resolveColumns_eq_ok {m : Memory} {scope : Scope} {columns : List (List Cell)}
    {columns' : List (Column Gate)} : resolveColumns m scope columns = .ok columns' ↔
      List.Forall₂ (List.Forall₂ (Cell.Resolves scope)) columns columns' ∧
        ∀ column ∈ columns', ∀ p ∈ Column.placed column, p.2.rowsHeld m p.1 := by
  induction columns generalizing columns' with
  | nil => cases columns' <;> simp [resolveColumns]
  | cons cells rest ih =>
    simp only [resolveColumns, Except.bind_eq_ok, resolveCells_eq_ok]
    constructor
    · rintro ⟨column, ⟨first, held⟩, others, resolved, done⟩
      cases done
      obtain ⟨resolves, all⟩ := ih.mp resolved
      exact ⟨.cons first resolves, List.forall_mem_cons.mpr ⟨held, all⟩⟩
    · rintro ⟨_ | ⟨first, others⟩, held⟩
      obtain ⟨here, all⟩ := List.forall_mem_cons.mp held
      exact ⟨_, ⟨first, here⟩, _, ih.mpr ⟨others, all⟩, rfl⟩

/-- The cell that is written for a slot. -/
def Cell.ofSlot : Option Gate → Cell
  | none => .empty
  | some g => .gate g.id

/-- A column is written without the empty cells at its end. -/
theorem exists_cellsOf_append (column : Column Gate) :
    ∃ count, column.map Cell.ofSlot = cellsOf column ++ List.replicate count .empty := by
  have written : cellsOf column =
      ((column.map Cell.ofSlot).reverse.dropWhile (· = .empty)).reverse := by
    have cells : Cell.ofSlot = fun | none => Cell.empty | some g => Cell.gate g.id := by
      funext cell
      cases cell <;> rfl
    rw [cells]
    rfl
  generalize column.map Cell.ofSlot = cells at written
  refine ⟨(cells.reverse.takeWhile (· = .empty)).length, ?_⟩
  rw [written, ← List.reverse_inj, List.reverse_append, List.reverse_reverse, List.reverse_replicate]
  conv_lhs => rw [← List.takeWhile_append_dropWhile (p := (· = Cell.empty)) (l := cells.reverse)]
  refine congrArg (· ++ _) (List.eq_replicate_of_mem fun cell inside => ?_)
  simpa using List.mem_takeWhile_imp inside

theorem Column.resolved_iff {scope : Scope} {column full : Column Gate} :
    Column.Resolved scope column full ↔
      List.Forall₂ (Cell.Resolves scope) (column.map Cell.ofSlot) full := by
  rw [Column.Resolved, List.forall₂_map_left_iff]
  refine iff_of_eq (congrFun (congrFun (congrArg List.Forall₂ ?_) _) _)
  funext slot slot'
  refine propext ⟨?_, ?_⟩
  · rintro (resolved | _)
    · exact .gate resolved
    · exact .empty
  · intro resolves
    cases slot <;> cases resolves
    · exact .none
    · next resolved => exact .some resolved

/-- What the written cells of a column stand for, on all wires. -/
theorem Column.resolved_padTo_iff {scope : Scope} {column full : Column Gate} :
    Column.Resolved scope column full ↔
      ∃ column', List.Forall₂ (Cell.Resolves scope) (cellsOf column) column' ∧
        Column.padTo column' column.length = full := by
  obtain ⟨count, written⟩ := exists_cellsOf_append column
  have lengths : column.length = (cellsOf column).length + count := by
    simpa using congrArg List.length written
  have padded : ∀ column' : Column Gate, column'.length = (cellsOf column).length →
      Column.padTo column' column.length = column' ++ List.replicate count none := by
    intro column' same
    rw [Column.padTo, List.take_of_length_le (by omega)]
    congr 2
    omega
  rw [Column.resolved_iff, written]
  constructor
  · intro resolved
    have front := List.forall₂_take (cellsOf column).length resolved
    have back := List.forall₂_drop (cellsOf column).length resolved
    rw [List.take_left] at front
    rw [List.drop_left] at back
    refine ⟨_, front, ?_⟩
    rw [padded _ front.length_eq.symm]
    have blank : full.drop (cellsOf column).length = List.replicate count none := by
      rw [← List.length_replicate (a := Cell.empty) (n := count), back.length_eq]
      refine List.eq_replicate_of_mem fun slot inside => ?_
      obtain ⟨i, bound, same⟩ := List.mem_iff_getElem.mp inside
      have resolves := back.get (back.length_eq ▸ bound) bound
      simp only [List.get_eq_getElem, List.getElem_replicate, same] at resolves
      cases resolves
      rfl
    rw [← blank, List.take_append_drop]
  · rintro ⟨column', resolved, rfl⟩
    rw [padded _ resolved.length_eq.symm]
    refine List.rel_append resolved ?_
    rw [List.forall₂_iff_get]
    refine ⟨by simp, fun i bound bound' => ?_⟩
    simp only [List.get_eq_getElem, List.getElem_replicate]
    exact .empty

/-! ## Wires -/

theorem foldl_max_le_iff {α : Type} {f : α → Nat} {xs : List α} {start bound : Nat} :
    xs.foldl (fun most x => max most (f x)) start ≤ bound ↔ start ≤ bound ∧ ∀ x ∈ xs, f x ≤ bound := by
  induction xs generalizing start with
  | nil => simp
  | cons x xs ih =>
    rw [List.foldl_cons, ih, Nat.max_le, List.forall_mem_cons, and_assoc]

/-- A column needs the wires of its slots and those that its gates are listed with. -/
theorem Column.reach_le_iff {column : Column Gate} {wires : Nat} :
    Column.reach column ≤ wires ↔ column.length ≤ wires ∧
      ∀ top g, (top, g) ∈ placed column → ∀ row ∈ g.wordRows top, row < wires := by
  rw [Column.reach, foldl_max_le_iff]
  refine and_congr_right fun short => ?_
  have lowest (top : Nat) (g : Gate) (inside : (top, g) ∈ placed column) :
      (g.wordRows top).max?.getD top + 1 ≤ wires ↔ ∀ row ∈ g.wordRows top, row < wires := by
    cases found : (g.wordRows top).max? with
    | none =>
      rw [List.max?_eq_none_iff] at found
      have own := (List.getElem?_eq_some_iff.mp (mem_placed.mp inside)).1
      simp only [found, Option.getD_none, List.not_mem_nil, false_implies, implies_true, iff_true]
      omega
    | some lowest =>
      rw [Option.getD_some, Nat.add_one_le_iff]
      rw [List.max?_eq_some_iff] at found
      exact ⟨fun below row inside => Nat.lt_of_le_of_lt (found.2 row inside) below,
        fun all => all lowest found.1⟩
  exact ⟨fun all top g inside => (lowest top g inside).mp (all (top, g) inside),
    fun all p inside => (lowest p.1 p.2 inside).mpr (all p.1 p.2 inside)⟩

/-- A column needs no more than its slots and the rows that its gates cover. -/
theorem Column.reach_le {column : Column Gate} {wires : Nat} (short : column.length ≤ wires)
    (inRange : ∀ row ∈ Column.occupied column, row < wires) : Column.reach column ≤ wires := by
  refine reach_le_iff.mpr ⟨short, fun top g inside row listed => inRange row ?_⟩
  rw [mem_occupied]
  obtain all | none := g.wordRows_eq_or top
  · exact ⟨top, g, inside, all ▸ listed⟩
  · rw [none] at listed
    cases listed

theorem reachOf_le_iff {columns : List (Column Gate)} {wires : Nat} :
    reachOf columns ≤ wires ↔ ∀ column ∈ columns, Column.reach column ≤ wires := by
  rw [reachOf, foldl_max_le_iff]
  exact and_iff_right (Nat.zero_le wires)

/-- Columns are laid out on the given wires when they are held and fit there. -/
theorem layOut_eq_ok {m : Memory} {columns : List (Column Gate)} {wires : Nat} {c : Circuit} :
    layOut m columns (some wires) = .ok c ↔ reachOf columns ≤ wires ∧
      (columns.isEmpty || m.holdsColumn wires) ∧
      c = ⟨wires, columns.map fun column => Column.padTo column wires⟩ ∧ checkCircuit c = .ok () := by
  rw [layOut, Option.getD_some, Circuit.ofColumns]
  split
  · next short =>
    refine iff_of_false (by simp) fun fits => ?_
    exact absurd fits.1 (by omega)
  · next fits =>
    split
    · next held =>
      simp only [Except.andThen_eq_ok, pure, Except.pure, Except.ok.injEq]
      constructor
      · rintro ⟨valid, rfl⟩
        exact ⟨by omega, held, rfl, valid⟩
      · rintro ⟨-, -, rfl, valid⟩
        exact ⟨valid, rfl⟩
    · next full => exact iff_of_false (by simp) fun fits => full fits.2.1

@[simp] theorem Memory.holdsColumn_unlimited (slots : Nat) :
    unlimited.holdsColumn slots = true := rfl

theorem Column.Fits.reach_le {wires : Nat} {column : Column Gate} (short : column.length ≤ wires)
    (fits : Fits wires (padTo column wires)) : Column.reach column ≤ wires := by
  refine Column.reach_le short fun row covered => fits.in_range row ?_
  rw [Column.mem_occupied] at covered ⊢
  rwa [Column.padTo, List.take_of_length_le short, Column.placed_append_blank]

/-- What the written cells of columns stand for, on all wires. -/
theorem resolved_columns_iff {scope : Scope} {columns full : List (Column Gate)} {wires : Nat}
    (lengths : ∀ column ∈ columns, column.length = wires) :
    List.Forall₂ (Column.Resolved scope) columns full ↔
      ∃ columns', List.Forall₂ (List.Forall₂ (Cell.Resolves scope)) (columns.map cellsOf) columns' ∧
        columns'.map (fun column' => Column.padTo column' wires) = full := by
  induction columns generalizing full with
  | nil =>
    constructor
    · rintro ⟨⟩
      exact ⟨[], .nil, rfl⟩
    · rintro ⟨_, ⟨⟩, rfl⟩
      exact .nil
  | cons column rest ih =>
    have length := lengths column List.mem_cons_self
    have others := fun full => @ih full fun column inside =>
      lengths column (List.mem_cons_of_mem _ inside)
    constructor
    · rintro (_ | ⟨first, resolved⟩)
      obtain ⟨column', cells, padded⟩ := Column.resolved_padTo_iff.mp first
      obtain ⟨rest', cells', rfl⟩ := (others _).mp resolved
      exact ⟨column' :: rest', .cons cells cells', by rw [List.map_cons, ← length, padded]⟩
    · rintro ⟨_, _ | ⟨first, resolved⟩, rfl⟩
      refine .cons ?_ ((others _).mpr ⟨_, resolved, rfl⟩)
      exact Column.resolved_padTo_iff.mpr ⟨_, first, by rw [length]⟩

theorem length_of_resolves {scope : Scope} {column column' : Column Gate}
    (resolved : List.Forall₂ (Cell.Resolves scope) (cellsOf column) column') :
    column'.length ≤ column.length := by
  obtain ⟨count, written⟩ := exists_cellsOf_append column
  have lengths := congrArg List.length written
  rw [List.length_map, List.length_append] at lengths
  have same := resolved.length_eq
  omega

/-- **The circuit of a sheet whose columns were written from full ones.** Its gates are what the ids
stand for in the scope of all definitions. -/
theorem Sheet.decode_eq_ok {outer : Scope} {columns : List (Column Gate)} {ds : List Definition}
    {wires : Nat} {c : Circuit} (lengths : ∀ column ∈ columns, column.length = wires) :
    Sheet.decode outer ⟨columns.map cellsOf, ds, some wires⟩ = .ok c ↔
      ∃ gs, Definition.Decoded outer ds gs ∧ c.wires = wires ∧
        List.Forall₂ (Column.Resolved (outer.extend ds gs)) columns c.columns ∧
        checkCircuit c = .ok () := by
  simp only [Sheet.decode, Sheet.decodeIn, Except.bind_eq_ok, Definition.decodeAll_eq_ok,
    resolveColumns_eq_ok, layOut_eq_ok, resolved_columns_iff lengths, Gate.rowsHeld_unlimited,
    Memory.holdsColumn_unlimited, Bool.or_true, implies_true, and_true, true_and]
  constructor
  · rintro ⟨_, ⟨gs, decoded, rfl⟩, columns', resolved, -, rfl, valid⟩
    exact ⟨gs, decoded, rfl, ⟨columns', resolved, rfl⟩, valid⟩
  · rintro ⟨gs, decoded, rfl, ⟨columns', resolved, padded⟩, valid⟩
    refine ⟨_, ⟨gs, decoded, rfl⟩, columns', resolved, ?_, by rw [padded], valid⟩
    rw [reachOf_le_iff]
    intro column' inside
    have fits := (checkCircuit_eq_ok.mp valid).1 _ (padded ▸ List.mem_map_of_mem inside)
    refine fits.reach_le ?_
    rw [List.forall₂_map_left_iff] at resolved
    obtain ⟨column, written, cells⟩ := exists_left_of_mem resolved inside
    rw [← lengths column written]
    exact length_of_resolves cells

end CircuitGrid
