import CircuitGrid.Description.Basic

/-!
# Gates at every level of nesting

A nested gate holds a circuit, whose gates may hold circuits in turn. What is said of every gate of
a circuit, at every level, is proved by induction over that nesting.

* `Circuit.At`: a gate in a slot of a circuit;
* `Circuit.Holds`: a gate of a circuit at any level;
* **`Circuit.nesting_induction`**: what passes from the nested circuits to the one around them is
  true of every circuit;
* `Definition.nesting_induction`: the same for definitions;
* `Grid.all`: a test of all gates at all levels, and `Grid.all_eq_true`.
-/

namespace CircuitGrid

namespace Circuit

/-- A gate stands in a column of the circuit. -/
def At (c : Circuit) (g : Gate) : Prop := ∃ column ∈ c.columns, some g ∈ column

/-- A gate stands in the circuit or in a circuit nested in it. -/
inductive Holds : Circuit → Gate → Prop
  | here {c : Circuit} {g : Gate} : c.At g → Holds c g
  | inside {c : Circuit} {g h : Gate} {body : Circuit} :
      c.At g → g.body? = some body → Holds body h → Holds c h

end Circuit

/-! ## Induction over nesting -/

theorem Gate.role_of_body? {g : Gate} {body : Circuit} (h : g.body? = some body) :
    g.role = .nested body := by
  unfold Gate.body? at h
  split at h
  · next found role => rw [role, Option.some.inj h]
  · cases h

theorem Gate.body?_eq_none {g : Gate} (role : ∀ body, g.role ≠ .nested body) : g.body? = none := by
  unfold body?
  split
  · next body nested => exact absurd nested (role body)
  · rfl

theorem Gate.sizeOf_body {g : Gate} {body : Circuit} (h : g.body? = some body) :
    sizeOf body < sizeOf g := by
  have role := Gate.role_of_body? h
  cases g
  simp only at role
  subst role
  simp only [Gate.mk.sizeOf_spec, Role.nested.sizeOf_spec]
  omega

theorem Circuit.At.sizeOf_lt {c : Circuit} {g : Gate} (h : c.At g) : sizeOf g < sizeOf c := by
  obtain ⟨column, inColumns, inColumn⟩ := h
  have first := List.sizeOf_lt_of_mem inColumn
  have second := List.sizeOf_lt_of_mem inColumns
  cases c
  simp only [Grid.mk.sizeOf_spec, Option.some.sizeOf_spec] at first second ⊢
  omega

/-- **Induction over nesting.** What passes from the nested circuits to the circuit around them is
true of every circuit. -/
theorem Circuit.nesting_induction {P : Circuit → Prop}
    (step : ∀ c : Circuit, (∀ g, c.At g → ∀ body, g.body? = some body → P body) → P c)
    (c : Circuit) : P c := by
  apply step
  intro g inside body holds
  exact nesting_induction step body
termination_by sizeOf c
decreasing_by exact Nat.lt_trans (Gate.sizeOf_body holds) inside.sizeOf_lt

theorem Definition.sizeOf_lt {d d' : Definition} {body : Description} (found : d.circuit = some body)
    (inside : d' ∈ body.gates) : sizeOf d' < sizeOf d := by
  have first := List.sizeOf_lt_of_mem inside
  cases d
  cases body
  simp only at found
  subst found
  simp only [Sheet.mk.sizeOf_spec, Definition.mk.sizeOf_spec, Option.some.sizeOf_spec] at first ⊢
  omega

/-- What passes from the definitions in the circuit of a definition to it is true of every
definition. -/
theorem Definition.nesting_induction {P : Definition → Prop}
    (step : ∀ d : Definition, (∀ body, d.circuit = some body → ∀ d' ∈ body.gates, P d') → P d)
    (d : Definition) : P d := by
  apply step
  intro body found d' inside
  exact nesting_induction step d'
termination_by sizeOf d
decreasing_by exact Definition.sizeOf_lt found inside

theorem Circuit.Holds.cases_at {c : Circuit} {h : Gate} (held : c.Holds h) :
    ∃ g, c.At g ∧ (h = g ∨ ∃ body, g.body? = some body ∧ body.Holds h) := by
  cases held with
  | here inside => exact ⟨h, inside, .inl rfl⟩
  | inside inside body held => exact ⟨_, inside, .inr ⟨_, body, held⟩⟩

/-! ## Testing all gates -/

mutual

/-- Whether a gate and all gates in it pass a test. -/
def Gate.all (test : Gate → Bool) : Gate → Bool
  | ⟨id, title, role, height, exports, matrix, entangler, inert, height_pos⟩ =>
    test ⟨id, title, role, height, exports, matrix, entangler, inert, height_pos⟩ &&
    match role with
    | .nested body => Grid.all test body
    | _ => true
termination_by structural g => g

/-- Whether all gates of a circuit pass a test, at every level. -/
def Grid.all (test : Gate → Bool) : Grid Gate → Bool
  | ⟨_, columns⟩ => Gate.allColumns test columns
termination_by structural c => c

/-- Whether all gates of columns pass a test. -/
def Gate.allColumns (test : Gate → Bool) : List (List (Option Gate)) → Bool
  | [] => true
  | column :: rest => Gate.allCells test column && Gate.allColumns test rest
termination_by structural columns => columns

/-- Whether all gates of cells pass a test. -/
def Gate.allCells (test : Gate → Bool) : List (Option Gate) → Bool
  | [] => true
  | none :: rest => Gate.allCells test rest
  | some g :: rest => Gate.all test g && Gate.allCells test rest
termination_by structural cells => cells

end

variable {test : Gate → Bool}

theorem Gate.all_eq_true {g : Gate} :
    Gate.all test g ↔ test g ∧ ∀ body, g.body? = some body → Grid.all test body := by
  cases g with
  | mk id title role height exports matrix entangler inert height_pos =>
    cases role <;> simp [Gate.all, Gate.body?]

theorem Gate.allCells_eq_true {cells : Column Gate} :
    Gate.allCells test cells ↔ ∀ g, some g ∈ cells → Gate.all test g := by
  induction cells with
  | nil => simp [Gate.allCells]
  | cons cell rest ih => cases cell <;> simp [Gate.allCells, ih]

theorem Gate.allColumns_eq_true {columns : List (Column Gate)} :
    Gate.allColumns test columns ↔ ∀ column ∈ columns, ∀ g, some g ∈ column → Gate.all test g := by
  induction columns with
  | nil => simp [Gate.allColumns]
  | cons column rest ih => simp [Gate.allColumns, ih, Gate.allCells_eq_true]

theorem Grid.all_iff_at {c : Circuit} :
    Grid.all test c ↔ ∀ g, c.At g → Gate.all test g := by
  cases c
  simp only [Grid.all, Gate.allColumns_eq_true, Circuit.At]
  exact ⟨fun h g ⟨column, inColumns, inColumn⟩ => h column inColumns g inColumn,
    fun h column inColumns g inColumn => h g ⟨column, inColumns, inColumn⟩⟩

/-- **The test of a circuit is the test of all gates it holds.** -/
theorem Grid.all_eq_true {c : Circuit} : Grid.all test c ↔ ∀ g, c.Holds g → test g := by
  induction c using Circuit.nesting_induction with
  | step c ih =>
    rw [Grid.all_iff_at]
    constructor
    · intro every h held
      obtain ⟨g, inside, rfl | ⟨body, nested, held⟩⟩ := held.cases_at
      · exact (Gate.all_eq_true.mp (every h inside)).1
      · exact (ih g inside body nested).mp ((Gate.all_eq_true.mp (every g inside)).2 body nested) h held
    · intro every g inside
      refine Gate.all_eq_true.mpr ⟨every g (.here inside), fun body nested => ?_⟩
      exact (ih g inside body nested).mpr fun h held => every h (.inside inside nested held)

end CircuitGrid
