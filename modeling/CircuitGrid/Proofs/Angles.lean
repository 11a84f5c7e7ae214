import CircuitGrid.Proofs.BuiltIn
import CircuitGrid.Proofs.Description.TextRoundTrip
import CircuitGrid.Proofs.Emission

/-!
# The angles of instructions

An operation takes a number of angles, and a gate brings the angles along that its operation is
given, a list for each of the two operations that it may become. Lowering passes the lists on as
they are. So a program has the right number of angles everywhere when the gates have whose
operations are asked for; the built-in gates have, and a gate of a description may not.

* `Operation.Angled`, `Gate.AngledUnder`: operations and payloads with the right number of angles;
* `angled_lowerColumn`: the operations of one column;
* `Gate.angledUnder_of_isBuiltIn`: built-in gates bring the right number of angles;
* **`Circuit.lower_angled`**: which programs have the right number of angles everywhere.
-/

namespace CircuitGrid

/-! ## Operations and payloads with their angles -/

/-- The operation has as many angles as it takes. -/
def Operation.Angled (o : Operation) : Prop := o.params.length = o.op.angles

/-- All operations of output columns have as many angles as they take. -/
def AllAngled (slices : List Slice) : Prop := ∀ o ∈ slices.flatten, o.Angled

/-- The operation that a payload becomes under a number of controls is given as many angles as it
takes. A placeholder becomes an operation of its own without controls, and the plain NOT is left
under two of them. -/
def Gate.AngledUnder (g : Gate) : Nat → Prop
  | 0 => (∀ p, g.role ≠ .nonLocal p) →
      ∀ e, g.exports = some e → e.params.length = e.uncontrolled.angles
  | 1 => ∀ e op, g.exports = some e → e.controlled = some op →
      e.controlledParams.length = op.angles
  | _ => True

/-- The operations that the payloads of a column become are given as many angles as they take. -/
def Column.Angled (column : Column Gate) : Prop :=
  ∀ row g, (row, g) ∈ payload column → g.AngledUnder (controlCount column)

theorem allAngled_append {slices slices' : List Slice} :
    AllAngled (slices ++ slices') ↔ AllAngled slices ∧ AllAngled slices' := by
  simp only [AllAngled, List.flatten_append, List.mem_append, or_imp, forall_and]

theorem allAngled_flatten {parts : List (List Slice)} :
    AllAngled parts.flatten ↔ ∀ part ∈ parts, AllAngled part := by
  simp only [AllAngled, List.mem_flatten]
  grind

theorem allAngled_singleton {o : Operation} : AllAngled [[o]] ↔ o.Angled := by
  simp [AllAngled]

/-! ## Columns -/

section

variable {source offset row : Nat} {column : Column Gate} {slices : List Slice}

theorem Frame.allAngled_wrap (frame : Frame) (payload : List Slice) :
    AllAngled (frame.wrap payload) ↔ AllAngled payload := by
  have flips : AllAngled frame.flips := by
    intro o inside
    obtain ⟨wire, -, rfl⟩ := Frame.mem_flips inside
    rfl
  have swap : AllAngled frame.swap := by
    intro o inside
    obtain rfl | ⟨control, -, rfl⟩ := Frame.mem_swap inside <;> rfl
  rw [Frame.wrap, allAngled_append, allAngled_append, allAngled_append]
  exact ⟨fun all => all.1.2, fun all => ⟨⟨⟨flips, swap⟩, all⟩, flips⟩⟩

/-- Without controls a payload is lowered to an operation with the angles of its gate, or to the
operations of its circuit. -/
theorem angled_lowerGate {g : Gate} (lowered : lowerGate source offset row g = .ok slices) :
    AllAngled slices ↔ g.AngledUnder 0 ∧ ∀ body, g.exports = none → g.body? = some body →
      ∀ part, lowerCircuit source (row + offset) body = .ok part → AllAngled part := by
  by_cases nonLocal : ∃ p, g.role = .nonLocal p
  · obtain ⟨p, role⟩ := nonLocal
    have flat : g.body? = none := Gate.body?_eq_none (by simp [role])
    have angles : p.kind.op.angles = 0 := by cases p.kind <;> rfl
    rw [lowerGate_of_nonLocal role, Except.ok.injEq] at lowered
    subst lowered
    simp [allAngled_singleton, Operation.Angled, angles, Gate.AngledUnder, role, flat]
  have role : ∀ p, g.role ≠ .nonLocal p := fun p is => nonLocal ⟨p, is⟩
  cases exports : g.exports with
  | some e =>
    rw [lowerGate_of_exports role exports] at lowered
    split at lowered
    · rw [Except.ok.injEq] at lowered
      subst lowered
      simp [allAngled_singleton, Operation.Angled, Gate.AngledUnder, role, exports]
    · cases lowered
  | none =>
    cases nested : g.body? with
    | some body =>
      rw [lowerGate_of_nested (Gate.role_of_body? nested) exports] at lowered
      simp [Gate.AngledUnder, exports, lowered]
    | none =>
      rw [lowerGate_of_none role exports nested] at lowered
      cases lowered

theorem angled_underControl {g : Gate} {control : Nat} {slice : Slice}
    (lowered : underControl source offset control row g = .ok slice) :
    (∀ o ∈ slice, o.Angled) ↔ g.AngledUnder 1 := by
  obtain ⟨flat, e, op, exports, known, arity⟩ := underControl_ok_iff.mp ⟨slice, lowered⟩
  rw [underControl_of_controlled flat exports known arity, Except.ok.injEq] at lowered
  subst lowered
  rw [List.forall_mem_singleton]
  constructor
  · intro angled e' op' exports' known'
    rw [exports, Option.some.injEq] at exports'
    subst exports'
    rw [known, Option.some.injEq] at known'
    exact known' ▸ angled
  · intro angled
    exact angled e op exports known

theorem angled_underControls {g : Gate} {first second : Nat} {slice : Slice}
    (lowered : underControls source offset first second row g = .ok slice) :
    ∀ o ∈ slice, o.Angled := by
  unfold underControls at lowered
  split at lowered <;> cases lowered
  simp [Operation.Angled, Op.angles]

/-- The payload of a column is lowered to operations with the angles of its gates. -/
theorem angled_lowerPayload {controls : List (Nat × Bool)} (few : controls.length ≤ 2)
    (lowered : lowerPayload source offset controls column = .ok slices) :
    AllAngled slices ↔
      (∀ row g, (row, g) ∈ Column.payload column → g.AngledUnder controls.length) ∧
        (controls.length = 0 → ∀ row g body, (row, g) ∈ Column.payload column →
          g.exports = none → g.body? = some body →
            ∀ part, lowerCircuit source (row + offset) body = .ok part → AllAngled part) := by
  have slicewise : AllAngled slices ↔ ∀ slice ∈ slices, ∀ o ∈ slice, o.Angled := by
    simp only [AllAngled, List.mem_flatten]
    grind
  match controls with
  | [] =>
    simp only [lowerPayload, Except.bind_eq_ok, pure, Except.pure, Except.ok.injEq] at lowered
    obtain ⟨parts, done, rfl⟩ := lowered
    rw [allAngled_flatten, Except.forall_mapM_iff done fun q _ part => angled_lowerGate]
    simp only [List.length_nil, true_imp_iff]
    constructor
    · intro all
      exact ⟨fun row g inside => (all (row, g) inside).1,
        fun row g body inside => (all (row, g) inside).2 body⟩
    · rintro ⟨angled, bodies⟩ ⟨row, g⟩ inside
      exact ⟨angled row g inside, fun body => bodies row g body inside⟩
  | [control] =>
    rw [slicewise, Except.forall_mapM_iff lowered fun q _ slice => angled_underControl]
    simp
  | [first, second] =>
    rw [slicewise, Except.forall_mapM_iff lowered (P := fun _ => True) fun q _ slice found =>
      iff_true_intro (angled_underControls found)]
    simp [Gate.AngledUnder]
  | _ :: _ :: _ :: _ =>
    simp only [List.length_cons] at few
    omega

/-- **The operations of a column have the angles of its gates**, and those of the circuits that are
put in place. -/
theorem angled_lowerColumn (lowered : lowerColumn source offset column = .ok slices) :
    AllAngled slices ↔ Column.Angled column ∧
      ∀ row g body, (row, g) ∈ Column.payload column → g.exports = none → g.body? = some body →
        ∀ part, lowerCircuit source (row + offset) body = .ok part → AllAngled part := by
  obtain ⟨-, operations, -⟩ := lowerColumn_ok_iff_parts.mp ⟨slices, lowered⟩
  simp only [lowerColumn, Except.bind_eq_ok, pure, Except.pure, Except.ok.injEq] at lowered
  obtain ⟨frame, framed, payload, lowered, rfl⟩ := lowered
  obtain ⟨count, few⟩ := Frame.length_controls framed
  rw [Frame.allAngled_wrap, angled_lowerPayload few lowered, count, Column.Angled]
  refine and_congr_right fun _ => ⟨fun bodies row g body inside exports nested => ?_,
    fun bodies _ => bodies⟩
  have none := (operations row g inside).eq_zero_of_nested nested exports
  exact bodies none row g body inside exports nested

end

/-! ## Circuits -/

namespace Circuit

variable {source offset : Nat} {c : Circuit} {slices : List Slice}

/-- What holds of all columns that lowering reaches is said of the columns of the circuit and of
those of the circuits that are put in place. -/
theorem forall_reaches_iff {P : Column Gate → Prop} :
    (∀ first column, c.Reaches offset first column → P column) ↔
      ∀ column ∈ c.columns, P column ∧
        ∀ row g body, (row, g) ∈ Column.payload column → g.exports = none → g.body? = some body →
          ∀ first inside, body.Reaches (row + offset) first inside → P inside := by
  constructor
  · intro all column isColumn
    exact ⟨all offset column (.outer isColumn), fun row g body inside exports nested first column
      reaches => all first column (.inner isColumn inside nested exports reaches)⟩
  · intro all first column reaches
    cases reaches with
    | outer isColumn => exact (all column isColumn).1
    | inner isColumn inside nested exports reaches =>
      exact (all _ isColumn).2 _ _ _ inside exports nested first column reaches

/-- A column has the right number of angles everywhere when it and the columns that lowering reaches
in it have, if the same is true of the circuits nested in it. -/
theorem angled_column {column : Column Gate} (isColumn : column ∈ c.columns)
    (nested : ∀ g, c.At g → ∀ body, g.body? = some body → ∀ offset part,
      lowerCircuit source offset body = .ok part →
        (AllAngled part ↔ ∀ first inside, body.Reaches offset first inside → Column.Angled inside))
    (lowered : lowerColumn source offset column = .ok slices) :
    AllAngled slices ↔ Column.Angled column ∧
      ∀ row g body, (row, g) ∈ Column.payload column → g.exports = none → g.body? = some body →
        ∀ first inside, body.Reaches (row + offset) first inside → Column.Angled inside := by
  rw [angled_lowerColumn lowered]
  refine and_congr_right fun _ => forall₅_congr fun row g body inside exports =>
    forall_congr' fun isBody => ?_
  have here : c.At g := ⟨column, isColumn, Column.mem_of_placed (List.mem_of_mem_filter inside)⟩
  obtain ⟨part, found, -⟩ := lowerCircuit_subset lowered inside isBody exports
  rw [← nested g here body isBody (row + offset) part found]
  refine ⟨fun all => all part found, fun angled part' found' => ?_⟩
  rw [found, Except.ok.injEq] at found'
  exact found' ▸ angled

theorem angled_lowerCircuit (lowered : lowerCircuit source offset c = .ok slices) :
    AllAngled slices ↔ ∀ first column, c.Reaches offset first column → Column.Angled column := by
  induction c using nesting_induction generalizing offset slices with
  | step c ih =>
    rw [lowerCircuit_eq, lowerColumns_eq] at lowered
    simp only [Except.bind_eq_ok, pure, Except.pure, Except.ok.injEq] at lowered
    obtain ⟨parts, done, rfl⟩ := lowered
    rw [forall_reaches_iff, allAngled_flatten]
    exact Except.forall_mapM_iff done fun column isColumn part lowered =>
      angled_column isColumn (fun g here body nested _ _ => ih g here body nested) lowered

theorem angled_slices (lowered : c.slices = .ok slices) :
    AllAngled slices ↔ ∀ first column, c.Reaches 0 first column → Column.Angled column := by
  rw [Circuit.slices, lowerFrom_eq] at lowered
  simp only [Except.bind_eq_ok, pure, Except.pure, Except.ok.injEq] at lowered
  obtain ⟨parts, done, rfl⟩ := lowered
  rw [forall_reaches_iff, allAngled_flatten]
  refine (Except.forall_mapM_iff done fun q isColumn part lowered =>
    angled_column (List.fst_mem_of_mem_zipIdx isColumn)
      (fun g _ body _ _ _ => angled_lowerCircuit) lowered).trans ?_
  refine ⟨fun all column isColumn => ?_,
    fun all q isColumn => all q.1 (List.fst_mem_of_mem_zipIdx isColumn)⟩
  obtain ⟨i, found⟩ := List.mem_iff_getElem?.mp isColumn
  exact all (column, i) (List.mem_zipIdx_iff_getElem?.mpr found)

end Circuit

/-! ## Built-in gates -/

theorem length_eq_of_beq {xs ys : List Float} (same : xs == ys) : xs.length = ys.length := by
  induction xs generalizing ys with
  | nil => cases ys <;> simp_all
  | cons x xs ih =>
    cases ys with
    | nil => cases same
    | cons y ys =>
      have rest : xs == ys := by simp_all
      rw [List.length_cons, List.length_cons, ih rest]

/-- **A built-in gate brings as many angles along as its operations take.** -/
theorem Gate.angledUnder_of_isBuiltIn {g : Gate} (h : isBuiltIn g) (count : Nat) :
    g.AngledUnder count := by
  have all : Catalog.gates.all fun entry => entry.exports.all fun e =>
      e.params.length == e.uncontrolled.angles &&
        e.controlled.all fun op => e.controlledParams.length == op.angles := by decide +kernel
  obtain ⟨entry, same, passes⟩ := Gate.entry_passes h _ all
  have alike {e : Export} (exports : g.exports = some e) :
      e.params.length = e.uncontrolled.angles ∧
        ∀ op, e.controlled = some op → e.controlledParams.length = op.angles := by
    have equal := same.exports
    rw [exports] at equal
    cases found : entry.exports with
    | none =>
      rw [found] at equal
      cases equal
    | some e' =>
      rw [found, Option.some_beq_some, Export.beq_iff] at equal
      obtain ⟨operation, controlled, params, controlledParams⟩ := equal
      simp only [found, Option.all_some, Bool.and_eq_true, beq_iff_eq,
        Option.all_eq_true] at passes
      rw [← operation, ← length_eq_of_beq params, ← controlled,
        ← length_eq_of_beq controlledParams]
      exact passes
  match count with
  | 0 => exact fun _ e exports => (alike exports).1
  | 1 => exact fun e op exports => (alike exports).2 op
  | _ + 2 => trivial

-- The inverse root of X takes no angle. Under a control it becomes a rotation, which takes one.
example : (Catalog.find? "X^-½").any (fun g => g.exports.any fun e =>
    e.params.length == 0 && e.controlledParams.length == 1) := by decide +kernel

/-! ## Programs -/

/-- **Which programs have the right number of angles everywhere.** Every instruction of the program
of a circuit has as many angles as its operation takes exactly if the gates that are not built in
bring the right number along for the operation that is asked for, at every level of nesting: for the
uncontrolled one in a column without controls, and for the controlled one in a column with one. -/
theorem Circuit.lower_angled {c : Circuit} {p : Program} (lowered : c.lower = .ok p) :
    (∀ i ∈ p.instructions, i.params.length = i.op.angles) ↔
      ∀ first column, c.Reaches 0 first column → ∀ row g, (row, g) ∈ Column.payload column →
        ¬ isBuiltIn g → g.AngledUnder (Column.controlCount column) := by
  obtain ⟨slices, whole, rfl⟩ := lower_eq_ok.mp lowered
  have instructions : (∀ i ∈ (Program.ofSlices c.wires slices).instructions,
      i.params.length = i.op.angles) ↔ AllAngled slices := by
    rw [AllAngled, ← map_toOperation_numberSlices 0 slices, List.forall_mem_map]
    rfl
  rw [instructions, angled_slices whole]
  refine forall₃_congr fun first column reaches => forall₃_congr fun row g inside => ?_
  refine ⟨fun angled _ => angled, fun angled => ?_⟩
  by_cases builtIn : isBuiltIn g
  · exact Gate.angledUnder_of_isBuiltIn builtIn _
  · exact angled builtIn

/-- A rotation under a control in a nested circuit, and without one beside it. -/
theorem Circuit.lower_angled_nested :
    let gate (id : String) : Option Gate := Catalog.find? id
    let turn : Gate := { Gate.basic "R" "" with exports := some ⟨.rx, some .crx, [1], [2]⟩ }
    let c : Circuit := ⟨3, [[some (.nested "n" "" ⟨2, [[gate "•", some turn]]⟩), none, some turn]]⟩
    ∃ p, c.lower = .ok p ∧ p.instructions.map (·.op) = [.crx, .rx] ∧
      ∀ first column, c.Reaches 0 first column → ∀ row g, (row, g) ∈ Column.payload column →
        ¬ isBuiltIn g → g.AngledUnder (Column.controlCount column) := by
  intro gate turn c
  let p : Program := ⟨3, [⟨{ op := .crx, wires := [0, 1], params := [2] }, 0⟩,
    ⟨{ op := .rx, wires := [2], params := [1] }, 1⟩]⟩
  have lowered : c.lower = .ok p := rfl
  have angled : ∀ i ∈ p.instructions, i.params.length = i.op.angles := by decide
  exact ⟨p, lowered, rfl, (lower_angled lowered).mp angled⟩

/-- **A rotation without an angle**: the gate of a description says that it is a rotation, but not
by which angle. -/
theorem Circuit.not_lower_angled :
    ¬ ∀ (text : String) (c : Circuit) (p : Program), ofText text = .ok c → c.lower = .ok p →
      ∀ i ∈ p.instructions, i.params.length = i.op.angles := by
  intro all
  let text := "\x7b\"cols\":[[\"P\"]],\"gates\":[\x7b\"id\":\"P\"," ++
    "\"export\":\x7b\"uncontrolled\":\"rx\"\x7d\x7d]\x7d"
  have checked : (ofText text).toOption.any (fun c : Circuit => c.lower.toOption.any fun p =>
      p.instructions.any fun i => i.params.length != i.op.angles) = true := by
    rw [ofText_spelled text (spelled_append rfl rfl)]
    decide +kernel
  obtain ⟨c, read, checked⟩ := (Option.any_eq_true _ _).mp checked
  obtain ⟨p, lowered, checked⟩ := (Option.any_eq_true _ _).mp checked
  obtain ⟨i, inside, differs⟩ := List.any_eq_true.mp checked
  rw [Except.toOption_eq_some] at read lowered
  rw [all text c p read lowered i inside] at differs
  simp at differs

end CircuitGrid
