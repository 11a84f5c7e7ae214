import CircuitGrid.Proofs.BuiltIn
import CircuitGrid.Proofs.Layout
import Mathlib

/-!
# Equality of circuits

Numbers are compared as numbers, so equality is symmetric and transitive, and a circuit is equal to
itself unless it holds what is not a number.

* `Column.Same`, `Circuit.beq_iff`: equal circuits have equal gates, slot by slot;
* `Circuit.beq_symm`, **`Circuit.beq_trans`**, `Gate.Same.symm`, `Gate.Same.trans`;
* `Gate.numbers`, **`Circuit.beq_self`**: a circuit of numbers is equal to itself;
* `Circuit.Holds.of_beq`: equal circuits hold equal gates at every level;
* `Column.Same.fits`: equal columns cover the same rows.
-/

namespace CircuitGrid

/-! ## Lists and slots -/

section lists

variable {α β γ : Type} {R : α → β → Prop} {S : β → γ → Prop} {T : α → γ → Prop}

theorem forall₂_symm {R' : β → α → Prop} {as : List α} {bs : List β} (h : List.Forall₂ R as bs)
    (step : ∀ a ∈ as, ∀ b, R a b → R' b a) : List.Forall₂ R' bs as := by
  induction h with
  | nil => exact .nil
  | cons first _ ih =>
    exact .cons (step _ List.mem_cons_self _ first)
      (ih fun a inside => step a (List.mem_cons_of_mem _ inside))

theorem forall₂_trans {as : List α} {bs : List β} {cs : List γ} (h : List.Forall₂ R as bs)
    (k : List.Forall₂ S bs cs) (step : ∀ a ∈ as, ∀ b c, R a b → S b c → T a c) :
    List.Forall₂ T as cs := by
  induction h generalizing cs with
  | nil =>
    cases k
    exact .nil
  | cons first _ ih =>
    cases k with
    | cons first' others' =>
      exact .cons (step _ List.mem_cons_self _ _ first first')
        (ih others' fun a inside => step a (List.mem_cons_of_mem _ inside))

theorem exists_forall₂ {as : List α} (h : ∀ a ∈ as, ∃ b, R a b) : ∃ bs, List.Forall₂ R as bs := by
  induction as with
  | nil => exact ⟨[], .nil⟩
  | cons a as ih =>
    obtain ⟨b, first⟩ := h a List.mem_cons_self
    obtain ⟨bs, others⟩ := ih fun a inside => h a (List.mem_cons_of_mem _ inside)
    exact ⟨b :: bs, .cons first others⟩

theorem beq_list_iff [BEq α] {as bs : List α} : as == bs ↔ List.Forall₂ (· == ·) as bs := by
  induction as generalizing bs with
  | nil => cases bs <;> simp
  | cons a as ih => cases bs <;> simp [ih]

instance partialEquivBEqList [BEq α] [PartialEquivBEq α] : PartialEquivBEq (List α) where
  symm h := beq_list_iff.mpr (forall₂_symm (beq_list_iff.mp h) fun _ _ _ => PartialEquivBEq.symm)
  trans h k := beq_list_iff.mpr
    (forall₂_trans (beq_list_iff.mp h) (beq_list_iff.mp k) fun _ _ _ _ => PartialEquivBEq.trans)

instance partialEquivBEqOption [BEq α] [PartialEquivBEq α] : PartialEquivBEq (Option α) where
  symm {a b} h := by
    cases a <;> cases b <;> simp at h ⊢
    exact PartialEquivBEq.symm h
  trans {a b c} h k := by
    cases a <;> cases b <;> cases c <;> simp at h k ⊢
    exact PartialEquivBEq.trans h k

end lists

/-! ## Numbers -/

theorem Complex.beq_iff {z w : Complex} : z == w ↔ z.re == w.re ∧ z.im == w.im := by
  show (z.re == w.re && z.im == w.im) = true ↔ _
  rw [Bool.and_eq_true]

instance : PartialEquivBEq Complex where
  symm h := by
    rw [Complex.beq_iff] at h ⊢
    exact ⟨PartialEquivBEq.symm h.1, PartialEquivBEq.symm h.2⟩
  trans h k := by
    rw [Complex.beq_iff] at h k ⊢
    exact ⟨PartialEquivBEq.trans h.1 k.1, PartialEquivBEq.trans h.2 k.2⟩

instance : PartialEquivBEq Export where
  symm h := by
    rw [Export.beq_iff] at h ⊢
    obtain ⟨op, controlled, params, controlledParams⟩ := h
    exact ⟨op.symm, controlled.symm, PartialEquivBEq.symm params,
      PartialEquivBEq.symm controlledParams⟩
  trans h k := by
    rw [Export.beq_iff] at h k ⊢
    obtain ⟨op, controlled, params, controlledParams⟩ := h
    obtain ⟨op', controlled', params', controlledParams'⟩ := k
    exact ⟨op.trans op', controlled.trans controlled', PartialEquivBEq.trans params params',
      PartialEquivBEq.trans controlledParams controlledParams'⟩

/-! ## Circuits -/

/-- Two columns have equal gates, slot by slot. -/
def Column.Same (column column' : Column Gate) : Prop :=
  List.Forall₂ (Option.Rel Gate.Same) column column'

theorem Gate.sameCells_iff {column column' : Column Gate} :
    Gate.sameCells column column' ↔ Column.Same column column' := by
  unfold Column.Same
  induction column generalizing column' with
  | nil => cases column' <;> simp [Gate.sameCells]
  | cons cell rest ih =>
    cases column' with
    | nil => cases cell <;> simp [Gate.sameCells]
    | cons cell' rest' =>
      have slot : ∀ g h : Gate, Option.Rel Gate.Same (some g) (some h) ↔ Gate.same g h := by
        intro g h
        exact ⟨fun (.some same) => Gate.beq_iff.mpr same, fun same => .some (Gate.beq_iff.mp same)⟩
      rw [List.forall₂_cons, ← ih]
      cases cell with
      | none =>
        cases cell' with
        | none =>
          rw [Gate.sameCells]
          exact ⟨fun others => ⟨.none, others⟩, fun both => both.2⟩
        | some h => exact ⟨fun same => (by cases same), fun both => (by cases both.1)⟩
      | some g =>
        cases cell' with
        | none => exact ⟨fun same => (by cases same), fun both => (by cases both.1)⟩
        | some h => rw [Gate.sameCells, Bool.and_eq_true, slot]

theorem Gate.sameColumns_iff {columns columns' : List (Column Gate)} :
    Gate.sameColumns columns columns' ↔ List.Forall₂ Column.Same columns columns' := by
  induction columns generalizing columns' with
  | nil => cases columns' <;> simp [Gate.sameColumns]
  | cons column rest ih =>
    cases columns' <;> simp [Gate.sameColumns, ih, Gate.sameCells_iff]

theorem Circuit.beq_iff {c c' : Circuit} :
    c == c' ↔ c.wires = c'.wires ∧ List.Forall₂ Column.Same c.columns c'.columns := by
  obtain ⟨wires, columns⟩ := c
  show (wires == c'.wires && Gate.sameColumns columns c'.columns) = true ↔ _
  rw [Bool.and_eq_true, Gate.sameColumns_iff, beq_iff_eq]

theorem Gate.Same.symm_of {g h : Gate} (same : g.Same h)
    (inside : ∀ a b : Circuit, g.body? = some a → a == b → b == a) : h.Same g where
  id := same.id.symm
  title := same.title.symm
  role := by
    have role := same.role
    unfold Gate.body? at inside
    generalize g.role = r, h.role = s at role inside
    cases role with
    | nested bodies => exact .nested (inside _ _ rfl bodies)
    | _ => constructor
  height := same.height.symm
  exports := PartialEquivBEq.symm same.exports
  matrix := PartialEquivBEq.symm same.matrix
  entangler := same.entangler.symm
  inert := same.inert.symm

theorem Gate.Same.trans_of {g h k : Gate} (same : g.Same h) (same' : h.Same k)
    (inside : ∀ a b c : Circuit, g.body? = some a → a == b → b == c → a == c) : g.Same k where
  id := same.id.trans same'.id
  title := same.title.trans same'.title
  role := by
    have role := same.role
    have role' := same'.role
    unfold Gate.body? at inside
    generalize g.role = r, h.role = s, k.role = t at role role' inside
    cases role with
    | nested bodies =>
      cases role' with
      | nested bodies' => exact .nested (inside _ _ _ rfl bodies bodies')
    | _ => exact role'
  height := same.height.trans same'.height
  exports := PartialEquivBEq.trans same.exports same'.exports
  matrix := PartialEquivBEq.trans same.matrix same'.matrix
  entangler := same.entangler.trans same'.entangler
  inert := same.inert.trans same'.inert

theorem Circuit.beq_symm {c c' : Circuit} (h : c == c') : c' == c := by
  induction c using Circuit.nesting_induction generalizing c' with
  | step c ih =>
    rw [Circuit.beq_iff] at h ⊢
    refine ⟨h.1.symm, forall₂_symm h.2 fun column inColumns column' same => ?_⟩
    refine forall₂_symm same fun cell inColumn cell' slot => ?_
    cases slot with
    | none => exact .none
    | some same =>
      exact .some (same.symm_of fun a _ nested => ih _ ⟨column, inColumns, inColumn⟩ a nested)

/-- **Equality of circuits is transitive.** -/
theorem Circuit.beq_trans {c c' c'' : Circuit} (h : c == c') (k : c' == c'') : c == c'' := by
  induction c using Circuit.nesting_induction generalizing c' c'' with
  | step c ih =>
    rw [Circuit.beq_iff] at h k ⊢
    refine ⟨h.1.trans k.1, forall₂_trans h.2 k.2 fun column inColumns _ _ same same' => ?_⟩
    refine forall₂_trans same same' fun cell inColumn _ _ slot slot' => ?_
    cases slot with
    | none => exact slot'
    | some same =>
      cases slot' with
      | some same' =>
        refine .some (same.trans_of same' fun a _ _ nested => ?_)
        exact ih _ ⟨column, inColumns, inColumn⟩ a nested

theorem Gate.Same.symm {g h : Gate} (same : g.Same h) : h.Same g :=
  same.symm_of fun _ _ _ => Circuit.beq_symm

theorem Gate.Same.trans {g h k : Gate} (same : g.Same h) (same' : h.Same k) : g.Same k :=
  same.trans_of same' fun _ _ _ _ => Circuit.beq_trans

/-- A gate that equals a built-in one is built in. -/
theorem Gate.Same.isBuiltIn {g h : Gate} (same : g.Same h) (builtIn : isBuiltIn g) :
    isBuiltIn h := by
  obtain ⟨entry, found, entrySame⟩ := isBuiltIn_iff.mp builtIn
  exact isBuiltIn_iff.mpr ⟨entry, by rw [← same.id, found], entrySame.trans same⟩

/-! ## Circuits of numbers -/

/-- The angles of an export. -/
def Export.angles (e : Export) : List Float := e.params ++ e.controlledParams

/-- The components of the entries of a matrix. -/
def Matrix.components (m : Matrix) : List Float := m.flatMap fun z => [z.re, z.im]

/-- The doubles of a gate: angles and entries of its matrix. -/
def Gate.numbers (g : Gate) : List Float :=
  (g.exports.map Export.angles).getD [] ++ (g.matrix.map Matrix.components).getD []

theorem Export.beq_self {e : Export} (numbers : ∀ x ∈ e.angles, x == x) : e == e := by
  simp only [Export.angles, List.mem_append] at numbers
  rw [Export.beq_iff, beq_list_iff, beq_list_iff]
  exact ⟨rfl, rfl, List.forall₂_same.mpr fun x h => numbers x (.inl h),
    List.forall₂_same.mpr fun x h => numbers x (.inr h)⟩

theorem Matrix.beq_self {m : Matrix} (numbers : ∀ x ∈ m.components, x == x) : m == m := by
  simp only [Matrix.components, List.mem_flatMap] at numbers
  rw [beq_list_iff, List.forall₂_same]
  intro z inside
  exact Complex.beq_iff.mpr ⟨numbers z.re ⟨z, inside, by simp⟩, numbers z.im ⟨z, inside, by simp⟩⟩

/-- A gate of numbers is equal to itself if its circuit is. -/
theorem Gate.Same.refl {g : Gate} (numbers : ∀ x ∈ g.numbers, x == x)
    (inside : ∀ body : Circuit, g.body? = some body → body == body) : g.Same g where
  id := rfl
  title := rfl
  role := by
    unfold Gate.body? at inside
    generalize g.role = r at inside
    cases r with
    | nested body => exact .nested (inside body rfl)
    | _ => constructor
  height := rfl
  exports := by
    unfold Gate.numbers at numbers
    generalize g.exports = exports at numbers
    cases exports with
    | none => rfl
    | some e => exact Export.beq_self fun x h => numbers x (List.mem_append_left _ h)
  matrix := by
    unfold Gate.numbers at numbers
    generalize g.matrix = matrix at numbers
    cases matrix with
    | none => rfl
    | some m => exact Matrix.beq_self fun x h => numbers x (List.mem_append_right _ h)
  entangler := rfl
  inert := rfl

/-- **A circuit of gates that are equal to themselves is equal to itself.** -/
theorem Circuit.beq_self {c : Circuit} (gates : ∀ g, c.At g → g.Same g) : c == c := by
  rw [Circuit.beq_iff]
  refine ⟨rfl, List.forall₂_same.mpr fun column inColumns => ?_⟩
  refine List.forall₂_same.mpr fun cell inColumn => ?_
  cases cell with
  | none => exact .none
  | some g => exact .some (gates g ⟨column, inColumns, inColumn⟩)

/-! ## Gates of equal circuits -/

theorem Gate.Same.body {g h : Gate} (same : g.Same h) {body : Circuit} (inside : g.body? = some body) :
    ∃ body', h.body? = some body' ∧ body == body' := by
  have role := same.role
  unfold Gate.body? at inside ⊢
  generalize g.role = r, h.role = s at role inside
  cases role with
  | nested bodies => exact ⟨_, rfl, by rw [← Option.some.inj inside]; exact bodies⟩
  | _ => cases inside

theorem Column.Same.placed {column column' : Column Gate} (same : Column.Same column column')
    {row : Nat} {g : Gate} (inside : (row, g) ∈ Column.placed column) :
    ∃ g', (row, g') ∈ Column.placed column' ∧ g.Same g' := by
  obtain ⟨bound, slot⟩ := List.getElem?_eq_some_iff.mp (Column.mem_placed.mp inside)
  have bound' : row < column'.length := same.length_eq ▸ bound
  have cells := same.get bound bound'
  simp only [List.get_eq_getElem, slot] at cells
  generalize h : column'[row] = cell at cells
  cases cells with
  | some gates =>
    exact ⟨_, Column.mem_placed.mpr (List.getElem?_eq_some_iff.mpr ⟨bound', h⟩), gates⟩

theorem Circuit.At.of_beq {c c' : Circuit} (same : c == c') {g : Gate} (inside : c.At g) :
    ∃ g', c'.At g' ∧ g.Same g' := by
  obtain ⟨column, inColumns, inColumn⟩ := inside
  obtain ⟨column', inColumns', columns⟩ := exists_right_of_mem (Circuit.beq_iff.mp same).2 inColumns
  obtain ⟨cell', inColumn', cells⟩ := exists_right_of_mem columns inColumn
  cases cells with
  | some gates => exact ⟨_, ⟨column', inColumns', inColumn'⟩, gates⟩

/-- Equal circuits hold equal gates at every level. -/
theorem Circuit.Holds.of_beq {c c' : Circuit} (same : c == c') {g : Gate} (held : c.Holds g) :
    ∃ g', c'.Holds g' ∧ g.Same g' := by
  induction held generalizing c' with
  | here inside =>
    obtain ⟨g', inside', gates⟩ := inside.of_beq same
    exact ⟨g', .here inside', gates⟩
  | inside inside body _ ih =>
    obtain ⟨h, inside', gates⟩ := inside.of_beq same
    obtain ⟨body', nested, bodies⟩ := gates.body body
    obtain ⟨g', held', gates'⟩ := ih bodies
    exact ⟨g', .inside inside' nested held', gates'⟩

/-! ## Rows of equal columns -/

theorem Gate.Same.rowsAt {g h : Gate} (same : g.Same h) (row : Nat) : g.rowsAt row = h.rowsAt row := by
  have role := same.role
  unfold Gate.rowsAt
  rw [same.height]
  generalize g.role = r, h.role = s at role
  cases role <;> rfl

theorem Column.Same.occupiedFrom {column column' : Column Gate} (same : Column.Same column column')
    (start : Nat) : Column.occupiedFrom start column = Column.occupiedFrom start column' := by
  induction same generalizing start with
  | nil => rfl
  | cons slot _ ih =>
    cases slot with
    | none => exact ih (start + 1)
    | some gates => exact congrArg₂ (· ++ ·) (gates.rowsAt start) (ih (start + 1))

/-- A column fits where an equal one does. -/
theorem Column.Same.fits {column column' : Column Gate} (same : Column.Same column column')
    {wires : Nat} (fits : Column.Fits wires column') : Column.Fits wires column where
  length_eq := same.length_eq.trans fits.length_eq
  own_row row g inside := by
    obtain ⟨g', inside', gates⟩ := same.placed inside
    rw [gates.rowsAt]
    exact fits.own_row row g' inside'
  in_range := by
    rw [Column.occupied, same.occupiedFrom]
    exact fits.in_range
  nodup := by
    rw [Column.occupied, same.occupiedFrom]
    exact fits.nodup

end CircuitGrid
