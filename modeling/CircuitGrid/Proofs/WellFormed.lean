import CircuitGrid.Catalog
import CircuitGrid.Proofs.Layout
import Mathlib.Algebra.Group.Nat.Defs

/-!
# Well-formed circuits and what the checker takes for them

A circuit is well formed when its columns fit, its matrices are unitary on as many wires as their
gates are tall, and the circuits nested in it fit into their gates and are well formed themselves.
The checker counts the side of a matrix and its entries in words of 64 bits. It begins again after
64 wires, and from 32 wires on it expects no entries at all and then panics at the first one. So what
it accepts are the well-formed circuits and those with too small matrices on 64 wires or more.

* `Matrix.UnitaryOn`, `Matrix.PassesOn`: a matrix that belongs on so many wires, and one that is
  taken for that;
* `Circuit.WellFormed`: well-formed circuits, whatever is asked of the matrices;
* `checkMatrix_eq_ok`, `checkMatrix_eq_panic`: the check of a matrix;
* `Circuit.exists_of_panic`, `Circuit.passesOrPanics`: what makes the checker panic;
* **`Circuit.validate_iff_wellFormed`**: what the checker accepts.
-/

namespace CircuitGrid

namespace Matrix

/-- The matrix is square on so many wires, and it is unitary. -/
structure UnitaryOn (height : Nat) (m : Matrix) : Prop where
  size : m.length = 2 ^ height * 2 ^ height
  unitary : m.isUnitary (2 ^ height)

/-- The matrix is on fewer than 32 wires when they are counted from zero again after 64. -/
structure PassesOn (height : Nat) (m : Matrix) : Prop where
  few : height % 64 < 32
  unitaryOn : UnitaryOn (height % 64) m

/-- The matrix is empty on 32 wires or more, counted so. -/
structure EmptyOn (height : Nat) (m : Matrix) : Prop where
  many : 32 ≤ height % 64
  empty : m = []

end Matrix

/-- The columns fit, the matrices are sound for the heights of their gates, and the nested circuits
fit into their gates and are well formed themselves. -/
inductive Circuit.WellFormed (sound : Nat → Matrix → Prop) : Circuit → Prop
  | intro {c : Circuit} (fits : ∀ column ∈ c.columns, Column.Fits c.wires column)
      (matrices : ∀ g m, c.At g → g.matrix = some m → sound g.height m)
      (shorter : ∀ g body, c.At g → g.body? = some body → body.wires ≤ g.height)
      (bodies : ∀ g body, c.At g → g.body? = some body → WellFormed sound body) :
      WellFormed sound c

namespace Circuit

variable {sound sound' : Nat → Matrix → Prop} {c : Circuit}

theorem wellFormed_iff : c.WellFormed sound ↔
    (∀ column ∈ c.columns, Column.Fits c.wires column) ∧ ∀ g, c.At g →
      (∀ m, g.matrix = some m → sound g.height m) ∧
        ∀ body, g.body? = some body → body.wires ≤ g.height ∧ body.WellFormed sound := by
  constructor
  · rintro ⟨fits, matrices, shorter, bodies⟩
    exact ⟨fits, fun g inside => ⟨fun m => matrices g m inside,
      fun body nested => ⟨shorter g body inside nested, bodies g body inside nested⟩⟩⟩
  · rintro ⟨fits, each⟩
    exact ⟨fits, fun g m inside => (each g inside).1 m,
      fun g body inside nested => ((each g inside).2 body nested).1,
      fun g body inside nested => ((each g inside).2 body nested).2⟩

theorem WellFormed.holds (wellFormed : c.WellFormed sound) {g : Gate} (held : c.Holds g)
    {m : Matrix} (matrix : g.matrix = some m) : sound g.height m := by
  induction held with
  | here inside => exact ((wellFormed_iff.mp wellFormed).2 _ inside).1 m matrix
  | inside inside nested _ ih =>
    exact ih (((wellFormed_iff.mp wellFormed).2 _ inside).2 _ nested).2 matrix

/-- Something else may be asked of the matrices that the circuit holds. -/
theorem WellFormed.imp (wellFormed : c.WellFormed sound)
    (each : ∀ g m, c.Holds g → g.matrix = some m → sound g.height m → sound' g.height m) :
    c.WellFormed sound' := by
  induction wellFormed with
  | intro fits matrices shorter bodies ih =>
    refine .intro fits (fun g m inside matrix => ?_) shorter fun g body inside nested => ?_
    · exact each g m (.here inside) matrix (matrices g m inside matrix)
    · exact ih g body inside nested fun h m held => each h m (.inside inside nested held)

end Circuit

/-! ## The check of a matrix -/

section

variable {id gate : String} {height : Nat} {m : Matrix}

theorem matrixSide_mul_self (height : Nat) :
    matrixSide height * matrixSide height = 2 ^ (2 * (height % 64)) := by
  show 2 ^ (height % 64) * 2 ^ (height % 64) = _
  rw [← Nat.pow_add, Nat.two_mul]

/-- As many entries as belong on fewer than 32 wires can be counted in a word, and from there on
their number is a multiple of what a word can hold. -/
theorem matrixEntries_eq (height : Nat) : matrixEntries height =
    if height % 64 < 32 then matrixSide height * matrixSide height else 0 := by
  show matrixSide height * matrixSide height % 2 ^ 64 = _
  rw [matrixSide_mul_self]
  split
  · next few => exact Nat.mod_eq_of_lt (Nat.pow_lt_pow_right (by decide) (by omega))
  · next many =>
    have parts : 2 * (height % 64) = 64 + (2 * (height % 64) - 64) := by omega
    rw [parts, Nat.pow_add, Nat.mul_mod_right]

/-- A matrix passes the check when it is unitary on its wires, counted from zero after 64. -/
theorem checkMatrix_eq_ok :
    checkMatrix id height (some m) = .ok () ↔ Matrix.PassesOn height m := by
  have side : matrixSide height = 2 ^ (height % 64) := rfl
  have pos : 0 < matrixSide height * matrixSide height :=
    Nat.mul_pos (Nat.two_pow_pos _) (Nat.two_pow_pos _)
  have counted := matrixEntries_eq height
  rw [checkMatrix]
  constructor
  · intro passes
    split at passes
    · cases passes
    next size =>
    split at passes
    · cases passes
    next unitary tested =>
    cases unitary
    · cases passes
    obtain ⟨unitary, counts⟩ := Matrix.unitary?_eq_some_true.mp tested
    have few : height % 64 < 32 := by
      by_contra many
      have length := Matrix.length_of_isUnitary unitary
      rw [if_neg many] at counted
      omega
    rw [if_pos few] at counted
    exact ⟨few, by rw [← side]; omega, side ▸ unitary⟩
  · rintro ⟨few, size, unitary⟩
    have counts : matrixSide height * matrixSide height < wordLimit := by
      rw [matrixSide_mul_self]
      exact Nat.pow_lt_pow_right (by decide) (by omega)
    rw [if_pos few] at counted
    rw [← side] at size unitary
    rw [if_neg (by omega), Matrix.unitary?_eq_some_true.mpr ⟨unitary, counts⟩]
    rfl

/-- The check panics when there are no entries and their number is counted as zero. -/
theorem checkMatrix_eq_panic :
    checkMatrix id height (some m) = .error .panic ↔ Matrix.EmptyOn height m := by
  have pos : 0 < matrixSide height * matrixSide height :=
    Nat.mul_pos (Nat.two_pow_pos _) (Nat.two_pow_pos _)
  have counted := matrixEntries_eq height
  rw [checkMatrix]
  constructor
  · intro panics
    split at panics
    · cases panics
    next size =>
    split at panics
    · next untested =>
      have short : m.length < matrixSide height * matrixSide height := by
        unfold Matrix.unitary? at untested
        split_ifs at untested with other short
        exact short
      have many : ¬ height % 64 < 32 := by
        intro few
        rw [if_pos few] at counted
        omega
      rw [if_neg many] at counted
      exact ⟨by omega, List.eq_nil_of_length_eq_zero (by omega)⟩
    · split at panics <;> cases panics
  · rintro ⟨many, rfl⟩
    rw [if_neg (by omega)] at counted
    have wraps : matrixSide height * matrixSide height % wordLimit = 0 := counted
    have untested : Matrix.unitary? [] (matrixSide height) = none := by
      rw [Matrix.unitary?, if_neg (by simp [wraps]), if_pos (by simpa using pos)]
    rw [if_neg (by simp [counted]), untested]

end

/-- **The checker accepts exactly the circuits that are well formed but for how it counts the sides
of matrices.** -/
theorem Circuit.validate_eq_ok_iff_passes (c : Circuit) :
    c.validate = .ok () ↔ c.WellFormed Matrix.PassesOn := by
  induction c using Circuit.nesting_induction with
  | step c ih =>
    rw [validate, checkCircuit_eq_ok, wellFormed_iff]
    refine and_congr_right fun _ => forall₂_congr fun g inside => ?_
    rw [checkGate_eq_ok]
    refine and_congr ?_ (forall₂_congr fun body nested => and_congr_right fun _ => ?_)
    · cases g.matrix with
      | none => simp [checkMatrix]
      | some m => simp [checkMatrix_eq_ok]
    · exact ih g inside body nested

/-! ## What makes the checker panic -/

section

variable {wires index row : Nat} {covered : List Nat}

/-- A list of rows that cannot be held belongs to a very tall gate. -/
theorem Gate.le_height_of_unlisted {g : Gate} (unlisted : g.listRows wires row = none) :
    2 ^ 60 ≤ g.height := by
  unfold listRows rowsHeld at unlisted
  split_ifs at unlisted with below held
  split at held
  · exact absurd rfl held
  · simp only [Bool.or_eq_true, not_or, Memory.holds_words, Nat.pow_eq] at held
    omega

theorem coverRows_ne_panic {column : Nat} {gate : String} {rows : List Nat} :
    coverRows wires column gate covered rows ≠ .error .panic := by
  induction rows generalizing covered with
  | nil => simp [coverRows]
  | cons row rest ih =>
    rw [coverRows]
    split
    · simp
    · split
      · simp
      · exact ih

/-- A gate that makes the check of its column panic: its own check does, or it is very tall. -/
def Gate.Panics (g : Gate) : Prop := checkGate g = .error .panic ∨ 2 ^ 60 ≤ g.height

theorem exists_of_checkCells {cells : Column Gate}
    (stopped : checkCells wires index covered row cells = .error .panic) :
    ∃ g, some g ∈ cells ∧ g.Panics := by
  induction cells generalizing covered row with
  | nil => cases stopped
  | cons cell rest ih =>
    cases cell with
    | none =>
      obtain ⟨g, inside, panics⟩ := ih stopped
      exact ⟨g, List.mem_cons_of_mem _ inside, panics⟩
    | some g =>
      rw [checkCells] at stopped
      split at stopped
      · next unlisted => exact ⟨g, List.mem_cons_self, .inr (Gate.le_height_of_unlisted unlisted)⟩
      · split at stopped
        · simp only [Except.bind_eq_error, coverRows_ne_panic, false_or] at stopped
          obtain ⟨_, -, own | ⟨_, -, later⟩⟩ := stopped
          · exact ⟨g, List.mem_cons_self, .inl own⟩
          · obtain ⟨h, inside, panics⟩ := ih later
            exact ⟨h, List.mem_cons_of_mem _ inside, panics⟩
        · cases stopped

theorem exists_of_checkCircuit {c : Circuit} (stopped : checkCircuit c = .error .panic) :
    ∃ g, c.At g ∧ g.Panics := by
  obtain ⟨wires, columns⟩ := c
  simp only [checkCircuit, Circuit.At] at stopped ⊢
  generalize 0 = index at stopped
  induction columns generalizing index with
  | nil => cases stopped
  | cons column rest ih =>
    rw [checkColumns] at stopped
    split at stopped
    · cases stopped
    · rw [Except.bind_eq_error] at stopped
      obtain here | ⟨_, -, later⟩ := stopped
      · obtain ⟨g, inside, panics⟩ := exists_of_checkCells here
        exact ⟨g, ⟨column, List.mem_cons_self, inside⟩, panics⟩
      · obtain ⟨g, ⟨other, isColumn, inside⟩, panics⟩ := ih _ later
        exact ⟨g, ⟨other, List.mem_cons_of_mem _ isColumn, inside⟩, panics⟩

theorem checkGate_eq_panic {g : Gate} (stopped : checkGate g = .error .panic) :
    checkMatrix g.id g.height g.matrix = .error .panic ∨
      ∃ body, g.body? = some body ∧ checkCircuit body = .error .panic := by
  obtain ⟨id, title, role, height, exports, matrix, entangler, inert, pos⟩ := g
  cases role with
  | nested body =>
    rw [checkGate, Except.bind_eq_error] at stopped
    obtain own | ⟨_, -, later⟩ := stopped
    · exact .inl own
    · split at later
      · cases later
      · exact .inr ⟨body, rfl, later⟩
  | _ =>
    obtain own | ⟨_, _, later⟩ := Except.bind_eq_error.mp stopped
    · exact .inl own
    · cases later

/-- The checker panics at a matrix or at a very tall gate that the circuit holds. -/
theorem Circuit.exists_of_panic {c : Circuit} (stopped : c.validate = .error .panic) :
    ∃ g, c.Holds g ∧
      (checkMatrix g.id g.height g.matrix = .error .panic ∨ 2 ^ 60 ≤ g.height) := by
  induction c using Circuit.nesting_induction with
  | step c ih =>
    obtain ⟨g, inside, panics | tall⟩ := exists_of_checkCircuit stopped
    · obtain own | ⟨body, nested, within⟩ := checkGate_eq_panic panics
      · exact ⟨g, .here inside, .inl own⟩
      · obtain ⟨h, held, panics⟩ := ih g inside body nested within
        exact ⟨h, .inside inside nested held, panics⟩
    · exact ⟨g, .here inside, .inr tall⟩

end

/-- A check passes, or it panics. -/
def PassesOrPanics (check : Except (Stop CircuitError) Unit) : Prop :=
  check = .ok () ∨ check = .error .panic

section

variable {wires index row : Nat} {covered : List Nat}

theorem PassesOrPanics.andThen {check later : Except (Stop CircuitError) Unit}
    (first : PassesOrPanics check) (second : PassesOrPanics later) :
    PassesOrPanics (do check; later) := by
  obtain rfl | rfl := first
  · exact second
  · exact .inr rfl

/-- The cells of a column are laid out well, and only a panic stops their check. -/
theorem passesOrPanics_checkCells {cells : Column Gate}
    (gates : ∀ r g, (r, g) ∈ Column.placedFrom row cells →
      r ∈ g.rowsAt r ∧ PassesOrPanics (checkGate g))
    (inRange : ∀ r ∈ Column.occupiedFrom row cells, r < wires)
    (nodup : (Column.occupiedFrom row cells).Nodup)
    (off : (Column.occupiedFrom row cells).Disjoint covered) :
    PassesOrPanics (checkCells wires index covered row cells) := by
  induction cells generalizing row covered with
  | nil => exact .inl rfl
  | cons cell rest ih =>
    cases cell with
    | none => exact ih gates inRange nodup off
    | some g =>
      have occupied : Column.occupiedFrom row (some g :: rest) =
          g.rowsAt row ++ Column.occupiedFrom (row + 1) rest := rfl
      rw [occupied] at inRange nodup off
      rw [List.nodup_append'] at nodup
      rw [List.disjoint_append_left] at off
      obtain ⟨own, sound⟩ := gates row g List.mem_cons_self
      have inside : ∀ r ∈ g.rowsAt row, r < wires :=
        fun r h => inRange r (List.mem_append_left _ h)
      rw [checkCells_cons_of_free own inside nodup.1 off.1]
      refine sound.andThen (ih ?_ ?_ nodup.2.1 ?_)
      · exact fun r h inside => gates r h (List.mem_cons_of_mem _ inside)
      · exact fun r h => inRange r (List.mem_append_right _ h)
      · rw [List.disjoint_append_right, List.disjoint_reverse_right]
        exact ⟨nodup.2.2.symm, off.2⟩

theorem passesOrPanics_checkCircuit {c : Circuit}
    (fits : ∀ column ∈ c.columns, Column.Fits c.wires column)
    (each : ∀ g, c.At g → PassesOrPanics (checkGate g)) : PassesOrPanics (checkCircuit c) := by
  obtain ⟨wires, columns⟩ := c
  simp only [checkCircuit, Circuit.At] at fits each ⊢
  generalize 0 = index
  induction columns generalizing index with
  | nil => exact .inl rfl
  | cons column rest ih =>
    obtain ⟨first, others⟩ := List.forall_mem_cons.mp fits
    rw [checkColumns, if_neg (by simp [first.length_eq])]
    refine .andThen (passesOrPanics_checkCells (fun r g inside => ?_) first.in_range first.nodup
      (List.disjoint_nil_right _)) (ih others (fun g h => ?_) _)
    · exact ⟨first.own_row r g inside,
        each g ⟨column, List.mem_cons_self, Column.mem_of_placed inside⟩⟩
    · obtain ⟨other, isColumn, inside⟩ := h
      exact each g ⟨other, List.mem_cons_of_mem _ isColumn, inside⟩

theorem passesOrPanics_checkGate {g : Gate}
    (matrix : ∀ m, g.matrix = some m → Matrix.PassesOn g.height m ∨ Matrix.EmptyOn g.height m)
    (nested : ∀ body, g.body? = some body →
      body.wires ≤ g.height ∧ PassesOrPanics (checkCircuit body)) :
    PassesOrPanics (checkGate g) := by
  have own : PassesOrPanics (checkMatrix g.id g.height g.matrix) := by
    cases known : g.matrix with
    | none => exact .inl rfl
    | some m => exact (matrix m known).imp checkMatrix_eq_ok.mpr checkMatrix_eq_panic.mpr
  obtain ⟨id, title, role, height, exports, entries, entangler, inert, pos⟩ := g
  cases role with
  | nested body =>
    obtain ⟨shorter, sound⟩ := nested body rfl
    rw [checkGate, if_neg (Nat.not_lt.mpr shorter)]
    exact own.andThen sound
  | _ => exact own.andThen (.inl rfl)

/-- Where nothing is wrong but for empty matrices, the checker passes or panics. -/
theorem Circuit.passesOrPanics {c : Circuit} (wellFormed : c.WellFormed fun height m =>
      Matrix.PassesOn height m ∨ Matrix.EmptyOn height m) : PassesOrPanics c.validate := by
  induction wellFormed with
  | intro fits matrices shorter bodies ih =>
    refine passesOrPanics_checkCircuit fits fun g inside => passesOrPanics_checkGate
      (fun m => matrices g m inside) fun body nested => ?_
    exact ⟨shorter g body inside nested, ih g body inside nested⟩

end

namespace Matrix

variable {height : Nat} {m : Matrix}

/-- On fewer than 64 wires the matrices that pass are the unitary ones, as long as their entries can
be counted in a word. -/
theorem passesOn_and_lt_iff :
    PassesOn height m ∧ height < 64 ↔ UnitaryOn height m ∧ m.length < 2 ^ 64 := by
  constructor
  · rintro ⟨⟨few, unitary⟩, low⟩
    rw [Nat.mod_eq_of_lt low] at few unitary
    refine ⟨unitary, ?_⟩
    rw [unitary.size, ← Nat.pow_add]
    exact Nat.pow_lt_pow_right (by decide) (by omega)
  · rintro ⟨unitary, counted⟩
    rw [unitary.size, ← Nat.pow_add] at counted
    have low : height + height < 64 := (Nat.pow_lt_pow_iff_right (by decide)).mp counted
    have same : height % 64 = height := Nat.mod_eq_of_lt (by omega)
    exact ⟨⟨by omega, by rwa [same]⟩, by omega⟩

theorem EmptyOn.not_passesOn (empty : EmptyOn height m) : ¬ PassesOn height m :=
  fun passes => Nat.not_lt.mpr empty.many passes.few

end Matrix

/-- **What the checker accepts.** It accepts the circuits that are well formed when the wires of
matrices are counted from zero again after 64, and no matrix is on 32 wires or more, counted so.
Among circuits with matrices on fewer than 64 wires those are the well-formed ones, as long as the
entries of a matrix can be counted in a word. It panics only if a matrix is empty on 32 wires or
more, counted so, or if the rows of a gate are too many for a list; and if nothing but such a matrix
is wrong, it does panic there. -/
theorem Circuit.validate_iff_wellFormed (c : Circuit) :
    (c.validate = .ok () ↔ c.WellFormed Matrix.PassesOn) ∧
      ((c.validate = .ok () ∧ ∀ g, c.Holds g → g.matrix.isSome → g.height < 64) ↔
        c.WellFormed Matrix.UnitaryOn ∧
          ∀ g m, c.Holds g → g.matrix = some m → m.length < 2 ^ 64) ∧
      (c.validate = .error .panic → ∃ g, c.Holds g ∧
        ((∃ m, g.matrix = some m ∧ Matrix.EmptyOn g.height m) ∨ 2 ^ 60 ≤ g.height)) ∧
      ((c.WellFormed fun height m => Matrix.PassesOn height m ∨ Matrix.EmptyOn height m) →
        ∀ g m, c.Holds g → g.matrix = some m → Matrix.EmptyOn g.height m →
          c.validate = .error .panic) := by
  have accepts := c.validate_eq_ok_iff_passes
  refine ⟨accepts, ?_, fun stopped => ?_, fun wellFormed g m held matrix empty => ?_⟩
  · rw [accepts]
    constructor
    · rintro ⟨wellFormed, low⟩
      have both {g : Gate} {m : Matrix} (held : c.Holds g) (matrix : g.matrix = some m)
          (passes : Matrix.PassesOn g.height m) :
          Matrix.UnitaryOn g.height m ∧ m.length < 2 ^ 64 :=
        Matrix.passesOn_and_lt_iff.mp ⟨passes, low g held (by rw [matrix]; rfl)⟩
      refine ⟨wellFormed.imp fun g m held matrix passes => (both held matrix passes).1, ?_⟩
      exact fun g m held matrix => (both held matrix (wellFormed.holds held matrix)).2
    · rintro ⟨wellFormed, counted⟩
      have both {g : Gate} {m : Matrix} (held : c.Holds g) (matrix : g.matrix = some m)
          (unitary : Matrix.UnitaryOn g.height m) :
          Matrix.PassesOn g.height m ∧ g.height < 64 :=
        Matrix.passesOn_and_lt_iff.mpr ⟨unitary, counted g m held matrix⟩
      refine ⟨wellFormed.imp fun g m held matrix unitary => (both held matrix unitary).1, ?_⟩
      intro g held some
      obtain ⟨m, matrix⟩ := Option.isSome_iff_exists.mp some
      exact (both held matrix (wellFormed.holds held matrix)).2
  · obtain ⟨g, held, panics | tall⟩ := exists_of_panic stopped
    · cases matrix : g.matrix with
      | none =>
        rw [matrix] at panics
        cases panics
      | some m =>
        rw [matrix] at panics
        exact ⟨g, held, .inl ⟨m, matrix, checkMatrix_eq_panic.mp panics⟩⟩
    · exact ⟨g, held, .inr tall⟩
  · refine (passesOrPanics wellFormed).resolve_left fun accepted => ?_
    exact empty.not_passesOn ((accepts.mp accepted).holds held matrix)

/-- A circuit with a matrix in a nested circuit is accepted, so it is well formed. A circuit with an
empty matrix on 32 wires makes the checker panic, as there is nothing else wrong with it. -/
theorem Circuit.validate_iff_wellFormed_nested :
    let m : Gate := ⟨"m", "m", .unitary, 2, none, some .cnot, none, false, by decide⟩
    let body : Circuit := ⟨2, [[some m, none], [Catalog.find? "•", Catalog.find? "X"]]⟩
    let a : Circuit := ⟨3, [[Catalog.find? "H", some (.nested "n" "n" body), none]]⟩
    let e : Gate := ⟨"e", "e", .unitary, 32, none, some [], none, false, by decide⟩
    let b : Circuit := ⟨32, [some e :: List.replicate 31 none]⟩
    a.Holds m ∧ a.validate = .ok () ∧ a.WellFormed Matrix.UnitaryOn ∧
      (b.WellFormed fun height m => Matrix.PassesOn height m ∨ Matrix.EmptyOn height m) ∧
      b.validate = .error .panic ∧ ∃ g, b.Holds g ∧
        ((∃ m, g.matrix = some m ∧ Matrix.EmptyOn g.height m) ∨ 2 ^ 60 ≤ g.height) := by
  intro m body a e b
  have around : a.At (.nested "n" "n" body) :=
    ⟨_, List.mem_cons_self, List.mem_cons_of_mem _ List.mem_cons_self⟩
  have held : a.Holds m :=
    .inside around rfl (.here ⟨_, List.mem_cons_self, List.mem_cons_self⟩)
  have accepted : a.validate = .ok () := by decide +kernel
  have low : Grid.all (fun g => g.matrix.isNone || g.height < 64) a := rfl
  have wellFormed := ((validate_iff_wellFormed a).2.1.mp ⟨accepted, fun g held some => by
    simpa [Option.isNone_eq_false_iff.mpr some] using Grid.all_eq_true.mp low g held⟩).1
  have only : ∀ g, b.At g → g = e := by
    intro g inside
    simpa [Circuit.At, b] using inside
  have empty : Matrix.EmptyOn e.height [] := ⟨by decide, rfl⟩
  have placed : Column.placed (some e :: List.replicate 31 none) = [(0, e)] := rfl
  have almost : b.WellFormed fun height m =>
      Matrix.PassesOn height m ∨ Matrix.EmptyOn height m := by
    refine wellFormed_iff.mpr ⟨?_, fun g inside => ?_⟩
    · rw [List.forall_mem_singleton]
      refine ⟨rfl, ?_, by decide, by decide⟩
      rw [placed]
      simp [e, Gate.rowsAt]
    · rw [only g inside]
      refine ⟨fun m matrix => ?_, fun body nested => ?_⟩
      · cases matrix
        exact .inr empty
      · cases nested
  obtain ⟨-, -, blamed, stops⟩ := validate_iff_wellFormed b
  have inside : b.Holds e := .here ⟨_, List.mem_cons_self, List.mem_cons_self⟩
  have stopped := stops almost e [] inside rfl empty
  exact ⟨held, accepted, wellFormed, almost, stopped, blamed stopped⟩

/-- **What the checker takes for a well-formed circuit**: one with a single entry for a matrix on 64
wires. At an empty matrix on 32 wires it panics. -/
theorem Circuit.not_validate_iff_wellFormed :
    (¬ ∀ c : Circuit, c.validate = .ok () ↔ c.WellFormed Matrix.UnitaryOn) ∧
      ∃ c, Circuit.validate c = .error .panic := by
  let m : Gate := ⟨"m", "m", .unitary, 64, none, some [.one], none, false, by decide⟩
  let c : Circuit := ⟨64, [some m :: List.replicate 63 none]⟩
  let e : Gate := ⟨"e", "e", .unitary, 32, none, some [], none, false, by decide⟩
  constructor
  · intro all
    have wellFormed := (all c).mp (by decide +kernel)
    have held : c.Holds m := .here ⟨_, List.mem_cons_self, List.mem_cons_self⟩
    exact absurd (wellFormed.holds held rfl).size (by decide)
  · exact ⟨⟨32, [some e :: List.replicate 31 none]⟩, rfl⟩

end CircuitGrid
