import CircuitGrid.Distribution.Check
import CircuitGrid.Proofs.Editing

/-!
# What the check of a distributed circuit accepts

A distributed circuit is checked gate by gate once it is known to be well formed. A placeholder has
to agree with its kind, with the wires that are set apart for links and with the report; any other
gate has to stay off those wires.

* `checkPlaceholder_eq_ok`: the placeholders that are accepted;
* `Gate.Passes`: what is asked of a gate in a slot;
* **`Circuit.exists_checkLinks`**: the circuits that are accepted.
-/

namespace CircuitGrid

variable {links : Nat × Nat} {report : Option Report} {column row : Nat} {gate : Gate}
  {payload : Placeholder}

theorem isLinkWire_iff {wire : Nat} :
    isLinkWire links wire ↔ links.1 ≤ wire ∧ wire < links.2 := by
  simp [isLinkWire]

/-! ## Placeholders -/

theorem checkAllocation_eq_ok {id : String} {r : Report} :
    checkAllocation id column payload r = .ok () ↔
      ∀ s, r.siteOf? column payload = some s →
        ∃ l, r.linkFor? s.pair = some l ∧ (l.first, l.second) = payload.link := by
  unfold checkAllocation
  split
  · next unknown => simp [unknown]
  · next s known =>
    simp only [known, Option.some.injEq, forall_eq']
    split
    · next allocated =>
      simp only [true_iff]
      simpa [Option.any_eq_true] using allocated
    · next other =>
      simp only [reduceCtorEq, false_iff]
      simpa [Option.any_eq_true] using other

/-- A placeholder is accepted when its ends differ and its link wires, too, it carries the unitary
of its kind, its link wires are set apart for links, and they are those of its pair if the report
knows its site. -/
theorem checkPlaceholder_eq_ok : checkPlaceholder links report column gate payload = .ok () ↔
    payload.source ≠ payload.target ∧ payload.link.1 ≠ payload.link.2 ∧
      gate.matrix.any (·.approximates payload.kind.matrix) ∧
        isLinkWire links payload.link.1 ∧ isLinkWire links payload.link.2 ∧
          ∀ r s, report = some r → r.siteOf? column payload = some s →
            ∃ l, r.linkFor? s.pair = some l ∧ (l.first, l.second) = payload.link := by
  unfold checkPlaceholder
  split
  · next sameEnds => simp [sameEnds]
  · split
    · next sameLinks => simp [sameLinks]
    · split
      · next wrong =>
        simp only [reduceCtorEq, false_iff]
        rintro ⟨-, -, unitary, -⟩
        simp [unitary] at wrong
      · split
        · next outside =>
          simp only [reduceCtorEq, false_iff]
          rintro ⟨-, -, -, first, second, -⟩
          simp [first, second] at outside
        · next ends wires unitary inside =>
          simp only [Bool.not_eq_true, Bool.not_eq_false', Bool.or_eq_false_iff] at unitary inside
          cases report with
          | none => simp [ends, wires, unitary, inside]
          | some r =>
            simp only [checkAllocation_eq_ok, ends, wires, unitary, inside, ne_eq,
              not_false_eq_true, Option.some.injEq, true_and]
            constructor
            · rintro each _ s rfl known
              exact each s known
            · exact fun each s => each r s rfl

/-! ## Gates -/

/-- What the check asks of a gate in a slot. -/
structure Gate.Passes (links : Nat × Nat) (report : Option Report) (column row : Nat) (g : Gate) :
    Prop where
  placeholder : ∀ payload, g.placeholder? = some payload →
    checkPlaceholder links report column g payload = .ok ()
  other : g.placeholder? = none → ∀ r ∈ g.rowsAt row, ¬ isLinkWire links r

theorem exists_checkPlacement (done : Checked) :
    (∃ counts, checkPlacement links report done column row gate = .ok counts) ↔
      gate.Passes links report column row := by
  unfold checkPlacement
  split
  · next payload role =>
    simp only [Except.andThen_eq_ok, pure, Except.pure, Except.ok.injEq, exists_and_left,
      exists_eq', and_true]
    constructor
    · refine fun accepted => ⟨fun _ same => ?_, fun none => ?_⟩
      · rw [role, Option.some.injEq] at same
        rwa [← same]
      · rw [role] at none
        cases none
    · exact fun passes => passes.placeholder payload role
  · next role =>
    have flat (payload : Placeholder) : gate.placeholder? ≠ some payload := by simp [role]
    split
    · next touched =>
      have inside := List.mem_of_find?_eq_some touched
      have isLink := List.find?_some touched
      simp only [reduceCtorEq, exists_false, false_iff]
      exact fun passes => passes.other role _ inside isLink
    · next free =>
      simp only [Except.ok.injEq, exists_eq', true_iff]
      exact ⟨fun payload same => absurd same (flat payload), fun _ => List.find?_eq_none.mp free⟩

theorem exists_checkPlacements (done : Checked) {placements : List (Nat × Nat × Gate)} :
    (∃ counts, checkPlacements links report done placements = .ok counts) ↔
      ∀ q ∈ placements, q.2.2.Passes links report q.1 q.2.1 := by
  induction placements generalizing done with
  | nil => simp [checkPlacements]
  | cons q rest ih =>
    obtain ⟨column, row, gate⟩ := q
    simp only [checkPlacements, Except.bind_eq_ok, List.forall_mem_cons]
    rw [← exists_checkPlacement done]
    constructor
    · rintro ⟨counts, next, first, others⟩
      exact ⟨⟨next, first⟩, (ih next).mp ⟨counts, others⟩⟩
    · rintro ⟨⟨next, first⟩, others⟩
      obtain ⟨counts, others⟩ := (ih next).mpr others
      exact ⟨counts, next, first, others⟩

/-- **A circuit is accepted** when it is well formed and all its gates pass. -/
theorem Circuit.exists_checkLinks {c : Circuit} {partition : Option Partition} :
    (∃ counts, c.checkLinks partition report = .ok counts) ↔
      c.validate = .ok () ∧ ∀ i row g, c.cell? i row = some g →
        g.Passes (c.linkWires partition) report i row := by
  unfold checkLinks
  split
  · next invalid => simp [invalid]
  · next valid =>
    simp only [Except.mapError_eq_ok, exists_checkPlacements, valid, Prod.forall, mem_placements,
      true_and]

theorem Gate.Passes.withoutSites (passes : gate.Passes links report column row) (wires : Nat) :
    gate.Passes links (some ⟨wires, [], []⟩) column row := by
  refine ⟨fun payload role => ?_, passes.other⟩
  obtain ⟨ends, apart, unitary, first, second, -⟩ :=
    checkPlaceholder_eq_ok.mp (passes.placeholder payload role)
  refine checkPlaceholder_eq_ok.mpr ⟨ends, apart, unitary, first, second, ?_⟩
  rintro r s same known
  cases same
  cases known

end CircuitGrid
