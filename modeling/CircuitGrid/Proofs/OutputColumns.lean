import CircuitGrid.Catalog
import CircuitGrid.Proofs.Lowering
import Mathlib.Data.List.Chain

/-!
# The output columns of a program

Lowering gives slices. Each is one operation by itself, or the flips of the anti-controls of a
column, which are on different wires. No slice is empty, so that numbering them leaves no gap, and
gathering the instructions by their columns gives the slices back.

* `Slice.Regular`: the slices that lowering gives, and **`regular_of_lowerColumn`**;
* `gatherColumns_numberSlices`: numbered slices are gathered again;
* **`Circuit.byColumn_lower`**: the columns of a lowered circuit.
-/

namespace CircuitGrid

/-! ## Slices -/

/-- One operation by itself, or flips of different wires. -/
inductive Slice.Regular : Slice → Prop
  | single (o : Operation) : Regular [o]
  | flips {wires : List Nat} (nonempty : wires ≠ []) (nodup : wires.Nodup) :
      Regular (wires.map fun wire => { op := .x, wires := [wire] })

theorem Slice.Regular.ne_nil {slice : Slice} (regular : Regular slice) : slice ≠ [] := by
  cases regular with
  | single => exact List.cons_ne_nil _ _
  | flips nonempty => simpa using nonempty

/-- Operations that share a slice are flips, and no two of them share a wire. -/
theorem Slice.Regular.flips_of_length {slice : Slice} (regular : Regular slice)
    (several : 1 < slice.length) :
    (∀ o ∈ slice, o.op = .x ∧ o.params = [] ∧ o.wires.length = 1) ∧
      (slice.flatMap (·.wires)).Nodup := by
  cases regular with
  | single => exact absurd several (Nat.lt_irrefl 1)
  | @flips wires _ nodup =>
    refine ⟨fun o inside => ?_, ?_⟩
    · obtain ⟨wire, -, rfl⟩ := List.mem_map.mp inside
      exact ⟨rfl, rfl, rfl⟩
    · rw [List.flatMap_map]
      show (wires.flatMap fun wire => [wire]).Nodup
      rwa [List.flatMap_singleton']

section

variable {source offset row : Nat} {column : Column Gate} {slices : List Slice}

theorem Frame.regular_flips {frame : Frame} (nodup : (frame.controls.map (·.1)).Nodup) :
    ∀ slice ∈ frame.flips, Slice.Regular slice := by
  unfold flips
  split
  · exact nofun
  · next anti some =>
    rw [List.forall_mem_singleton]
    have regular : Slice.Regular (((frame.controls.filter (!·.2)).map (·.1)).map fun wire =>
        { op := .x, wires := [wire] }) :=
      .flips (by simpa using some) (nodup.sublist (List.filter_sublist.map _))
    rwa [List.map_map] at regular

theorem Frame.regular_swap {frame : Frame} : ∀ slice ∈ frame.swap, Slice.Regular slice := by
  unfold swap
  split
  · exact nofun
  · exact List.forall_mem_singleton.mpr (.single _)
  · exact List.forall_mem_singleton.mpr (.single _)

/-- The slices of a payload are regular if those of the circuit in it are. -/
theorem regular_of_lowerGate {g : Gate} (lowered : lowerGate source offset row g = .ok slices)
    (inside : ∀ body, g.body? = some body →
      ∀ slices, lowerCircuit source (row + offset) body = .ok slices →
        ∀ slice ∈ slices, Slice.Regular slice) :
    ∀ slice ∈ slices, Slice.Regular slice := by
  by_cases nonLocal : ∃ p, g.role = .nonLocal p
  · obtain ⟨p, role⟩ := nonLocal
    rw [lowerGate_of_nonLocal role] at lowered
    cases lowered
    exact List.forall_mem_singleton.mpr (.single _)
  have role : ∀ p, g.role ≠ .nonLocal p := fun p is => nonLocal ⟨p, is⟩
  cases exports : g.exports with
  | some e =>
    rw [lowerGate_of_exports role exports] at lowered
    split at lowered <;> cases lowered
    exact List.forall_mem_singleton.mpr (.single _)
  | none =>
    cases nested : g.body? with
    | some body =>
      rw [lowerGate_of_nested (Gate.role_of_body? nested) exports] at lowered
      exact inside body nested slices lowered
    | none =>
      rw [lowerGate_of_none role exports nested] at lowered
      cases lowered

theorem regular_of_underControl {g : Gate} {control : Nat} {slice : Slice}
    (lowered : underControl source offset control row g = .ok slice) : Slice.Regular slice := by
  unfold underControl at lowered
  split at lowered
  · cases lowered
  · cases lowered
  · split at lowered
    · split at lowered <;> cases lowered
      exact .single _
    · cases lowered

theorem regular_of_underControls {g : Gate} {first second : Nat} {slice : Slice}
    (lowered : underControls source offset first second row g = .ok slice) :
    Slice.Regular slice := by
  unfold underControls at lowered
  split at lowered <;> cases lowered
  exact .single _

theorem regular_of_lowerPayload {controls : List (Nat × Bool)}
    (lowered : lowerPayload source offset controls column = .ok slices)
    (inside : ∀ row g body, (row, g) ∈ Column.payload column → g.body? = some body →
      ∀ slices, lowerCircuit source (row + offset) body = .ok slices →
        ∀ slice ∈ slices, Slice.Regular slice) :
    ∀ slice ∈ slices, Slice.Regular slice := by
  intro slice isSlice
  match controls with
  | [] =>
    simp only [lowerPayload, Except.bind_eq_ok, Except.mapM_eq_ok, pure, Except.pure,
      Except.ok.injEq] at lowered
    obtain ⟨parts, each, rfl⟩ := lowered
    obtain ⟨part, inParts, isSlice⟩ := List.mem_flatten.mp isSlice
    obtain ⟨⟨row, g⟩, isPayload, lowered⟩ := exists_left_of_mem each inParts
    exact regular_of_lowerGate lowered (fun body => inside row g body isPayload) slice isSlice
  | [control] =>
    obtain ⟨q, -, lowered⟩ := exists_left_of_mem (Except.mapM_eq_ok.mp lowered) isSlice
    exact regular_of_underControl lowered
  | first :: second :: _ =>
    obtain ⟨q, -, lowered⟩ := exists_left_of_mem (Except.mapM_eq_ok.mp lowered) isSlice
    exact regular_of_underControls lowered

theorem regular_of_lowerColumns {columns : List (Column Gate)}
    (each : ∀ column ∈ columns, ∀ part, lowerColumn source offset column = .ok part →
      ∀ slice ∈ part, Slice.Regular slice)
    (lowered : lowerColumns source offset columns = .ok slices) :
    ∀ slice ∈ slices, Slice.Regular slice := by
  intro slice isSlice
  rw [lowerColumns_eq] at lowered
  obtain ⟨column, isColumn, part, found, inside⟩ := Except.exists_of_mem_flatten lowered isSlice
  exact each column isColumn part found slice inside

/-- **The slices of a column are regular.** -/
theorem regular_of_lowerColumn (lowered : lowerColumn source offset column = .ok slices) :
    ∀ slice ∈ slices, Slice.Regular slice := by
  -- The induction is on a circuit around the column; the circuits in its payload are nested there.
  suffices all : ∀ c : Circuit, ∀ column ∈ c.columns, ∀ offset slices,
      lowerColumn source offset column = .ok slices → ∀ slice ∈ slices, Slice.Regular slice from
    all ⟨0, [column]⟩ column List.mem_cons_self offset slices lowered
  clear lowered
  intro c
  induction c using Circuit.nesting_induction with
  | step c ih =>
    intro column isColumn offset slices lowered
    simp only [lowerColumn, Except.bind_eq_ok, pure, Except.pure, Except.ok.injEq] at lowered
    obtain ⟨frame, framed, payload, lowered, rfl⟩ := lowered
    obtain ⟨-, isFrame, -⟩ := Frame.ofColumn_eq_ok.mp framed
    have flips : ∀ slice ∈ frame.flips, Slice.Regular slice := by
      apply Frame.regular_flips
      rw [isFrame]
      exact Column.nodup_conditions offset column
    have payload : ∀ slice ∈ payload, Slice.Regular slice := by
      refine regular_of_lowerPayload lowered fun row g body inside nested slices lowered => ?_
      have here : c.At g :=
        ⟨column, isColumn, Column.mem_of_placed (List.mem_of_mem_filter inside)⟩
      rw [lowerCircuit_eq] at lowered
      exact regular_of_lowerColumns (fun inner h => ih g here body nested inner h _) lowered
    simp only [Frame.wrap, List.forall_mem_append]
    exact ⟨⟨⟨flips, Frame.regular_swap⟩, payload⟩, flips⟩

theorem regular_of_lowerFrom {columns : List (Column Gate)} {index : Nat}
    (lowered : lowerFrom index columns = .ok slices) : ∀ slice ∈ slices, Slice.Regular slice := by
  intro slice isSlice
  rw [lowerFrom_eq] at lowered
  obtain ⟨q, -, part, found, inside⟩ := Except.exists_of_mem_flatten lowered isSlice
  exact regular_of_lowerColumn found slice inside

end

/-! ## Numbered slices -/

section

variable {column : Nat} {slices : List Slice}

/-- The instructions of a slice in a column. -/
def numbered (column : Nat) (slice : Slice) : List Instruction := slice.map (⟨·, column⟩)

theorem numberSlices_cons {slice : Slice} :
    numberSlices column (slice :: slices) =
      numbered column slice ++ numberSlices (column + 1) slices := rfl

theorem column_of_mem_numbered {slice : Slice} {i : Instruction} (inside : i ∈ numbered column slice) :
    i.column = column := by
  obtain ⟨o, -, rfl⟩ := List.mem_map.mp inside
  rfl

/-- Numbering goes on by a column for every slice. -/
theorem column_of_mem_numberSlices {i : Instruction} (inside : i ∈ numberSlices column slices) :
    column ≤ i.column ∧ i.column < column + slices.length := by
  induction slices generalizing column with
  | nil => cases inside
  | cons slice rest ih =>
    rw [numberSlices_cons, List.mem_append] at inside
    rw [List.length_cons]
    obtain here | later := inside
    · have := column_of_mem_numbered here
      omega
    · have := ih later
      omega

theorem column_of_head_numberSlices (nonempty : ∀ slice ∈ slices, slice ≠ []) :
    ∀ i ∈ (numberSlices column slices).head?, i.column = column := by
  cases slices with
  | nil => exact nofun
  | cons slice rest =>
    obtain ⟨o, others, rfl⟩ := List.exists_cons_of_ne_nil (nonempty slice List.mem_cons_self)
    intro i head
    cases head
    rfl

/-- From one instruction to the next the column stays or rises by one. -/
theorem isChain_numberSlices (nonempty : ∀ slice ∈ slices, slice ≠ []) :
    (numberSlices column slices).IsChain fun i j =>
      j.column = i.column ∨ j.column = i.column + 1 := by
  induction slices generalizing column with
  | nil => exact .nil
  | cons slice rest ih =>
    obtain ⟨-, others⟩ := List.forall_mem_cons.mp nonempty
    refine List.isChain_append.mpr ⟨?_, ih others, fun i last j head => .inr ?_⟩
    · refine (List.pairwise_of_forall_mem_list fun i hi j hj => .inl ?_).isChain
      rw [column_of_mem_numbered hi, column_of_mem_numbered hj]
    · rw [column_of_mem_numbered (List.mem_of_getLast? last),
        column_of_head_numberSlices others j head]

/-- The first column that is gathered is that of the first instruction. -/
theorem head_gatherColumns (instructions : List Instruction) :
    (gatherColumns instructions).head?.map (·.1) = instructions.head?.map (·.column) := by
  cases instructions with
  | nil => rfl
  | cons i rest =>
    rw [gatherColumns]
    split
    · split
      · next same => simp [same]
      · rfl
    · rfl

/-- Instructions of one column before others are gathered by themselves. -/
theorem gatherColumns_append {group rest : List Instruction} (nonempty : group ≠ [])
    (same : ∀ i ∈ group, i.column = column) (other : ∀ i ∈ rest.head?, i.column ≠ column) :
    gatherColumns (group ++ rest) = (column, group) :: gatherColumns rest := by
  induction group with
  | nil => exact absurd rfl nonempty
  | cons i group ih =>
    obtain ⟨here, later⟩ := List.forall_mem_cons.mp same
    rw [List.cons_append, gatherColumns]
    cases group with
    | nil =>
      have heads := head_gatherColumns rest
      cases gathered : gatherColumns rest with
      | nil => simp [gathered, here]
      | cons q others =>
        have differ : q.1 ≠ column := by
          rw [gathered, List.head?_cons, Option.map_some, eq_comm, Option.map_eq_some_iff] at heads
          obtain ⟨j, head, column⟩ := heads
          rw [← column]
          exact other j head
        simp [gathered, here, differ]
    | cons j group =>
      rw [ih (List.cons_ne_nil _ _) later]
      simp [here]

/-- **Numbered slices are gathered again**, each in its column. -/
theorem gatherColumns_numberSlices (column : Nat) (nonempty : ∀ slice ∈ slices, slice ≠ []) :
    gatherColumns (numberSlices column slices) =
      (slices.zipIdx column).map fun (slice, i) => (i, numbered i slice) := by
  induction slices generalizing column with
  | nil => rfl
  | cons slice rest ih =>
    obtain ⟨first, others⟩ := List.forall_mem_cons.mp nonempty
    rw [numberSlices_cons, List.zipIdx_cons, List.map_cons, ← ih (column + 1) others]
    refine gatherColumns_append (by simpa [numbered] using first) (fun i => column_of_mem_numbered) ?_
    intro i head
    rw [column_of_head_numberSlices others i head]
    omega

theorem flatMap_numbered :
    (slices.zipIdx column).flatMap (fun (slice, i) => numbered i slice) =
      numberSlices column slices := by
  induction slices generalizing column with
  | nil => rfl
  | cons slice rest ih => rw [List.zipIdx_cons, List.flatMap_cons, ih, numberSlices_cons]

theorem foldl_max_numbered {slice : Slice} (nonempty : slice ≠ []) {count : Nat} :
    (numbered column slice).foldl (fun count i => max count (i.column + 1)) count =
      max count (column + 1) := by
  induction slice generalizing count with
  | nil => exact absurd rfl nonempty
  | cons o rest ih =>
    cases rest with
    | nil => rfl
    | cons o' rest =>
      show (numbered column (o' :: rest)).foldl _ (max count (column + 1)) = _
      rw [ih (List.cons_ne_nil _ _)]
      omega

/-- A program of slices that are not empty has as many columns as slices. -/
theorem numColumns_ofSlices (nonempty : ∀ slice ∈ slices, slice ≠ []) (wires : Nat) :
    (Program.ofSlices wires slices).numColumns = slices.length := by
  have general (slices : List Slice) (nonempty : ∀ slice ∈ slices, slice ≠ []) (column : Nat) :
      (numberSlices column slices).foldl (fun count i => max count (i.column + 1)) column =
        column + slices.length := by
    induction slices generalizing column with
    | nil => rfl
    | cons slice rest ih =>
      obtain ⟨first, others⟩ := List.forall_mem_cons.mp nonempty
      rw [numberSlices_cons, List.foldl_append, foldl_max_numbered first,
        Nat.max_eq_right (Nat.le_succ column), ih others, List.length_cons]
      omega
  rw [Program.numColumns, Program.ofSlices, general slices nonempty, Nat.zero_add]

end

/-! ## Lowered circuits -/

/-- **The columns of a lowered circuit.** They start at zero and rise by one at most from one
instruction to the next. Gathered by columns, the instructions stay in order, in groups that are
numbered without gaps. A group of several instructions consists of flips of different wires. -/
theorem Circuit.byColumn_lower {c : Circuit} {p : Program} (lowered : c.lower = .ok p) :
    (∀ i ∈ p.instructions.head?, i.column = 0) ∧
      (p.instructions.IsChain fun i j => j.column = i.column ∨ j.column = i.column + 1) ∧
      p.byColumn.map (·.1) = List.range p.numColumns ∧
      p.byColumn.flatMap (·.2) = p.instructions ∧
      (∀ q ∈ p.byColumn, ∀ i ∈ q.2, i.column = q.1) ∧
      ∀ q ∈ p.byColumn, 1 < q.2.length →
        (∀ i ∈ q.2, i.op = .x ∧ i.params = [] ∧ i.wires.length = 1) ∧
          (q.2.flatMap (·.wires)).Nodup := by
  obtain ⟨slices, found, rfl⟩ := lower_eq_ok.mp lowered
  have regular := regular_of_lowerFrom found
  have nonempty : ∀ slice ∈ slices, slice ≠ [] := fun slice h => (regular slice h).ne_nil
  have gathered := gatherColumns_numberSlices 0 nonempty
  have isSlice {q : Slice × Nat} (h : q ∈ slices.zipIdx) : Slice.Regular q.1 :=
    regular q.1 (List.mem_of_getElem? (List.mem_zipIdx_iff_getElem?.mp h))
  rw [numColumns_ofSlices nonempty, Program.byColumn, Program.ofSlices, gathered]
  refine ⟨column_of_head_numberSlices nonempty, isChain_numberSlices nonempty, ?_, ?_, ?_, ?_⟩
  · rw [List.map_map, List.range_eq_range', ← List.zipIdx_map_snd 0 slices]
    rfl
  · rw [List.flatMap_map]
    exact flatMap_numbered
  · intro q inside i isInstruction
    obtain ⟨⟨slice, column⟩, -, rfl⟩ := List.mem_map.mp inside
    exact column_of_mem_numbered isInstruction
  · intro q inside several
    obtain ⟨⟨slice, column⟩, found, rfl⟩ := List.mem_map.mp inside
    obtain ⟨flips, nodup⟩ := (isSlice found).flips_of_length (by simpa [numbered] using several)
    refine ⟨fun i isInstruction => ?_, ?_⟩
    · obtain ⟨o, isOperation, rfl⟩ := List.mem_map.mp isInstruction
      exact flips o isOperation
    · show ((numbered column slice).flatMap (·.wires)).Nodup
      rw [numbered, List.flatMap_map]
      exact nodup

/-- Two anti-controls around a nested circuit with an anti-control of its own, beside a swap. -/
theorem Circuit.byColumn_lower_flips :
    let gate (id : String) : Option Gate := Catalog.find? id
    let c : Circuit := ⟨4, [[gate "◦", gate "X", gate "◦", none],
      [gate "Swap", gate "Swap", some (.nested "n" "n" ⟨2, [[gate "◦", gate "Y"]]⟩), none]]⟩
    ∃ p, c.lower = .ok p ∧
      p.byColumn.map (fun q => (q.1, q.2.map fun i => (i.op, i.wires))) =
        [(0, [(.x, [0]), (.x, [2])]), (1, [(.ccx, [0, 2, 1])]), (2, [(.x, [0]), (.x, [2])]),
          (3, [(.swap, [0, 1])]), (4, [(.x, [2])]), (5, [(.cy, [2, 3])]), (6, [(.x, [2])])] ∧
      p.byColumn.map (·.1) = List.range p.numColumns ∧
      p.byColumn.flatMap (·.2) = p.instructions ∧
      ∀ q ∈ p.byColumn, 1 < q.2.length →
        (∀ i ∈ q.2, i.op = .x ∧ i.params = [] ∧ i.wires.length = 1) ∧
          (q.2.flatMap (·.wires)).Nodup := by
  intro gate c
  obtain ⟨p, lowered⟩ : ∃ p, c.lower = .ok p := ⟨_, rfl⟩
  obtain ⟨-, -, numbered, kept, -, flips⟩ := byColumn_lower lowered
  refine ⟨p, lowered, ?_, numbered, kept, flips⟩
  cases lowered
  rfl

end CircuitGrid
