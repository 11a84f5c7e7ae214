import CircuitGrid.Proofs.Composition

/-!
# Holes in circuits

A hole is a place for a column: between the columns of a circuit, or of a circuit that is nested in
it. What stands in the hole is lowered between two parts that do not depend on it, as long as the
nested circuits around it are put in the place of their gates. Below a gate that is a single
operation or a spacer it does not matter what stands in the hole.

* `Between`: a part of a result among others;
* `Gate.holding`: a gate with a circuit in it;
* **`between_lowerColumn`**: a nested circuit in its column, and `lowerColumn_holding_of_marked` for
  one with a mark;
* `Hole`, `Hole.fill`, `Hole.Expanded`: circuits with a hole for a column;
* `Hole.exists_of_holds`: every gate of a circuit is in a hole;
* **`Hole.between_slices`**: what a circuit with a hole is lowered to;
* `Hole.slices_fill_of_marked`: holes below a marked gate.
-/

namespace CircuitGrid

/-! ## Surroundings -/

/-- The whole is a part between two others that do not depend on it, and it fails in that order. -/
def Between {α : Type} (whole part : α → Except LoweringError (List Slice)) : Prop :=
  ∃ before after : Except LoweringError (List Slice), ∀ a,
    whole a = do return (← before) ++ ((← part a) ++ (← after))

section

variable {α : Type} {f g h : α → Except LoweringError (List Slice)}

theorem Between.refl (f : α → Except LoweringError (List Slice)) : Between f f := by
  refine ⟨.ok [], .ok [], fun a => ?_⟩
  cases f a with
  | error e => rfl
  | ok slices => exact congrArg Except.ok (List.append_nil slices).symm

theorem Between.trans (outer : Between f g) (inner : Between g h) : Between f h := by
  obtain ⟨before, after, outer⟩ := outer
  obtain ⟨before', after', inner⟩ := inner
  refine ⟨do return (← before) ++ (← before'), do return (← after') ++ (← after), fun a => ?_⟩
  rw [outer, inner]
  simp only [bind_assoc, pure_bind, List.append_assoc]

theorem Between.comp {β : Type} (between : Between f g) (k : β → α) :
    Between (fun b => f (k b)) fun b => g (k b) := by
  obtain ⟨before, after, parts⟩ := between
  exact ⟨before, after, fun b => parts (k b)⟩

theorem Between.of_error {e : LoweringError} (failed : ∀ a, f a = .error e) : Between f g :=
  ⟨.error e, .ok [], failed⟩

theorem Between.congr {a b : α} (between : Between f g) (same : g a = g b) : f a = f b := by
  obtain ⟨before, after, parts⟩ := between
  rw [parts, parts, same]

end

theorem between_lowerColumns (source offset : Nat) (before after : List (Column Gate)) :
    Between (fun column => lowerColumns source offset (before ++ column :: after))
      (lowerColumn source offset) := by
  refine ⟨lowerColumns source offset before, lowerColumns source offset after, fun column => ?_⟩
  induction before with
  | nil => simp [lowerColumns_cons, lowerColumns]
  | cons first rest ih =>
    simp only [List.cons_append, lowerColumns_cons, ih, bind_assoc, pure_bind, List.append_assoc]

theorem between_lowerFrom (before after : List (Column Gate)) :
    Between (fun column => lowerFrom 0 (before ++ column :: after))
      (lowerColumn before.length 0) := by
  refine ⟨lowerFrom 0 before, lowerFrom (before.length + 1) after, fun column => ?_⟩
  simp only [lowerFrom_append, Nat.zero_add, lowerFrom_cons, bind_assoc, pure_bind]

/-! ## Nested circuits in a column -/

theorem Column.placedFrom_append {start : Nat} {above below : Column Gate} :
    placedFrom start (above ++ below) =
      placedFrom start above ++ placedFrom (start + above.length) below := by
  induction above generalizing start with
  | nil => rfl
  | cons cell rest ih =>
    have next : start + (rest.length + 1) = start + 1 + rest.length := by omega
    cases cell <;> simp [placedFrom, ih, next]

theorem Frame.controlsOf_around {source offset : Nat} {q : Nat × Gate} (free : ¬ q.2.isControl)
    (before after : List (Nat × Gate)) :
    controlsOf source offset (before ++ q :: after) = controlsOf source offset (before ++ after) := by
  induction before with
  | nil => exact if_neg free
  | cons p rest ih =>
    rw [List.cons_append, List.cons_append, controlsOf, controlsOf, ih]

/-- The gate with a circuit in it. -/
def Gate.holding (g : Gate) (body : Circuit) : Gate := { g with role := .nested body }

theorem Gate.holding_of_body? {g : Gate} {body : Circuit} (nested : g.body? = some body) :
    g.holding body = g := by
  have role := Gate.role_of_body? nested
  cases g
  simp only at role
  subst role
  rfl

section

variable {source offset : Nat} {above below : Column Gate} {g : Gate} {body body' : Circuit}

theorem Column.placed_around : placed (above ++ some g :: below) =
    placed above ++ (above.length, g) :: placedFrom (above.length + 1) below := by
  rw [placed, placedFrom_append, Nat.zero_add]
  rfl

theorem Frame.ofColumn_holding : ofColumn source offset (above ++ some (g.holding body) :: below) =
    ofColumn source offset (above ++ none :: below) := by
  have blank : Column.placed (above ++ none :: below) =
      Column.placed above ++ Column.placedFrom (above.length + 1) below := by
    rw [Column.placed, Column.placedFrom_append, Nat.zero_add]
    rfl
  rw [ofColumn_eq, ofColumn_eq, Column.swapWires, Column.swapWires, Column.placed_around, blank,
    controlsOf_around (by exact Bool.false_ne_true), List.filter_append, List.filter_append,
    List.filter_cons_of_neg (by exact Bool.false_ne_true)]

theorem Column.payload_holding (acts : ¬ g.inert) :
    payload (above ++ some (g.holding body) :: below) = payload above ++
      (above.length, g.holding body) ::
        (placedFrom (above.length + 1) below).filter (·.2.isPayload) := by
  have isPayload : (g.holding body).isPayload := by
    simpa [Gate.holding, Gate.isPayload, Gate.hasNoEffect, Gate.isSwapHalf, Gate.isControl]
      using acts
  rw [payload, placed_around, List.filter_append, List.filter_cons_of_pos (by exact isPayload)]
  rfl

theorem Column.payload_holding_of_inert (inert : g.inert) :
    payload (above ++ some (g.holding body) :: below) = payload above ++
      (placedFrom (above.length + 1) below).filter (·.2.isPayload) := by
  have idle : ¬ (g.holding body).isPayload := by
    simp [Gate.isPayload, Gate.hasNoEffect, Gate.holding, inert]
  rw [payload, placed_around, List.filter_append, List.filter_cons_of_neg (by exact idle)]
  rfl

/-- Under controls a nested circuit is refused, whatever it holds. -/
theorem exists_lowerPayload_error {controls : List (Nat × Bool)} (under : controls ≠ [])
    (acts : ¬ g.inert) : ∃ e, ∀ body,
      lowerPayload source offset controls (above ++ some (g.holding body) :: below) = .error e := by
  match controls with
  | [c] =>
    have refused (body : Circuit) : underControl source offset c.1 above.length (g.holding body) =
        .error (unsupported g source (above.length + offset)) := rfl
    simp only [lowerPayload, Column.payload_holding acts, List.mapM_append, List.mapM_cons, refused]
    cases (Column.payload above).mapM fun q => underControl source offset c.1 q.1 q.2 with
    | error e => exact ⟨e, fun _ => rfl⟩
    | ok slices => exact ⟨_, fun _ => rfl⟩
  | c :: d :: _ =>
    have refused (body : Circuit) :
        underControls source offset c.1 d.1 above.length (g.holding body) =
          .error (.onlyNot source g.title (above.length + offset)) := rfl
    simp only [lowerPayload, Column.payload_holding acts, List.mapM_append, List.mapM_cons, refused]
    cases (Column.payload above).mapM fun q => underControls source offset c.1 d.1 q.1 q.2 with
    | error e => exact ⟨e, fun _ => rfl⟩
    | ok slices => exact ⟨_, fun _ => rfl⟩

/-- **A nested circuit without marks is put in its place**, among the other payloads of its
column. -/
theorem between_lowerColumn (exports : g.exports = none) (acts : ¬ g.inert) :
    Between (fun body => lowerColumn source offset (above ++ some (g.holding body) :: below))
      (fun body => lowerColumns source (above.length + offset) body.columns) := by
  simp only [lowerColumn, Frame.ofColumn_holding]
  cases Frame.ofColumn source offset (above ++ none :: below) with
  | error e => exact .of_error fun _ => rfl
  | ok frame =>
    obtain ⟨controls, swaps⟩ := frame
    simp only [Except.ok_bind]
    cases controls with
    | nil =>
      refine ⟨do return Frame.swap ⟨[], swaps⟩ ++ (← (Column.payload above).mapM fun q =>
          lowerGate source offset q.1 q.2).flatten,
        do return (← ((Column.placedFrom (above.length + 1) below).filter (·.2.isPayload)).mapM
          fun q => lowerGate source offset q.1 q.2).flatten, fun body => ?_⟩
      have nested : lowerGate source offset above.length (g.holding body) =
          lowerColumns source (above.length + offset) body.columns := by
        rw [lowerGate_of_nested (g := g.holding body) rfl exports, lowerCircuit_eq]
      simp only [lowerPayload, Column.payload_holding acts, List.mapM_append, List.mapM_cons,
        nested, Frame.wrap, Frame.flips, List.filter_nil, bind_assoc, pure_bind,
        List.flatten_append, List.flatten_cons, List.nil_append, List.append_nil,
        List.append_assoc]
    | cons c rest =>
      obtain ⟨e, refused⟩ : ∃ e, ∀ body, lowerPayload source offset (c :: rest)
          (above ++ some (g.holding body) :: below) = .error e :=
        exists_lowerPayload_error (List.cons_ne_nil c rest) acts
      simp only [refused]
      exact .of_error fun _ => rfl

/-- A marked nested circuit is passed over, or it is one operation, whatever it holds. -/
theorem lowerColumn_holding_of_marked (marked : ¬ (g.exports = none ∧ ¬ g.inert)) :
    lowerColumn source offset (above ++ some (g.holding body) :: below) =
      lowerColumn source offset (above ++ some (g.holding body') :: below) := by
  simp only [lowerColumn, Frame.ofColumn_holding]
  congr 1
  funext frame
  by_cases inert : g.inert
  · simp only [lowerPayload, Column.payload_holding_of_inert inert]
  obtain ⟨controls, swaps⟩ := frame
  cases controls with
  | nil =>
    obtain ⟨e, exports⟩ := Option.ne_none_iff_exists'.mp fun none => marked ⟨none, inert⟩
    have other (body : Circuit) (p : Placeholder) : (g.holding body).role ≠ .nonLocal p := by
      intro role
      cases role
    have same : lowerGate source offset above.length (g.holding body) =
        lowerGate source offset above.length (g.holding body') := by
      rw [lowerGate_of_exports (other body) exports, lowerGate_of_exports (other body') exports]
      rfl
    simp only [lowerPayload, Column.payload_holding inert, List.mapM_append, List.mapM_cons, same]
  | cons c rest =>
    obtain ⟨e, refused⟩ : ∃ e, ∀ body, lowerPayload source offset (c :: rest)
        (above ++ some (g.holding body) :: below) = .error e :=
      exists_lowerPayload_error (List.cons_ne_nil c rest) inert
    simp only [refused]

end

/-! ## Holes for columns -/

/-- A circuit with a hole for a column, among its own columns or among those of a circuit nested in
it. -/
inductive Hole where
  | here (wires : Nat) (before after : List (Column Gate))
  | inside (wires : Nat) (before after : List (Column Gate)) (above : Column Gate) (gate : Gate)
      (below : Column Gate) (inner : Hole)

namespace Hole

/-- The number of wires of the circuit. -/
def wires : Hole → Nat
  | here wires _ _ | inside wires _ _ _ _ _ _ => wires

/-- The outermost columns before the hole. -/
def before : Hole → List (Column Gate)
  | here _ before _ | inside _ before _ _ _ _ _ => before

/-- The outermost columns after the hole. -/
def after : Hole → List (Column Gate)
  | here _ _ after | inside _ _ after _ _ _ _ => after

/-- The outermost column around the hole, with a column in the hole. -/
def around (column : Column Gate) : Hole → Column Gate
  | here _ _ _ => column
  | inside _ _ _ above gate below inner =>
    above ++ some (gate.holding ⟨inner.wires, inner.before ++ inner.around column :: inner.after⟩) ::
      below

/-- The circuit with a column in the hole. -/
def fill (column : Column Gate) (hole : Hole) : Circuit :=
  ⟨hole.wires, hole.before ++ hole.around column :: hole.after⟩

/-- The first wire of the column in the hole. -/
def first : Hole → Nat
  | here _ _ _ => 0
  | inside _ _ _ above _ _ inner => above.length + inner.first

/-- Whether the circuits around the hole are put in the place of their gates. -/
def Expanded : Hole → Prop
  | here _ _ _ => True
  | inside _ _ _ _ gate _ inner => (gate.exports = none ∧ ¬ gate.inert) ∧ inner.Expanded

variable {hole : Hole} {column column' : Column Gate}

/-- **Every gate is in a hole**: whatever a circuit holds stands in a column, and without that
column the circuit has a hole. -/
theorem exists_of_holds {c : Circuit} {g : Gate} (held : c.Holds g) :
    ∃ hole column, fill column hole = c ∧ some g ∈ column := by
  induction held with
  | @here c g inside =>
    obtain ⟨column, isColumn, inside⟩ := inside
    obtain ⟨before, after, parts⟩ := List.append_of_mem isColumn
    refine ⟨here c.wires before after, column, ?_, inside⟩
    show (⟨c.wires, before ++ column :: after⟩ : Circuit) = c
    rw [← parts]
  | @inside c g h body inside nested _ ih =>
    obtain ⟨column, isColumn, slot⟩ := inside
    obtain ⟨before, after, parts⟩ := List.append_of_mem isColumn
    obtain ⟨above, below, cells⟩ := List.append_of_mem slot
    obtain ⟨inner, column', filled, here⟩ := ih
    refine ⟨inside c.wires before after above g below inner, column', ?_, here⟩
    show (⟨c.wires, before ++ (above ++ some (g.holding (fill column' inner)) :: below) :: after⟩ :
      Circuit) = c
    rw [filled, Gate.holding_of_body? nested, ← cells, ← parts]

/-- What the column around a hole is lowered to. -/
theorem between_around (expanded : hole.Expanded) (source offset : Nat) :
    Between (fun column => lowerColumn source offset (hole.around column))
      (lowerColumn source (hole.first + offset)) := by
  induction hole generalizing offset with
  | here wires before after =>
    rw [first, Nat.zero_add]
    exact .refl _
  | inside wires before after above gate below inner ih =>
    obtain ⟨⟨exports, acts⟩, expanded⟩ := expanded
    have nested : Between
        (fun body => lowerColumn source offset (above ++ some (gate.holding body) :: below))
        (fun body => lowerColumns source (above.length + offset) body.columns) :=
      between_lowerColumn exports acts
    have columns := between_lowerColumns source (above.length + offset) inner.before inner.after
    rw [first, Nat.add_comm above.length, Nat.add_assoc]
    exact (nested.comp fun column => inner.fill column).trans
      ((columns.comp fun column => inner.around column).trans (ih expanded _))

/-- **What a circuit with a hole is lowered to**: what the column in the hole is, between two parts
that do not depend on it. -/
theorem between_slices (expanded : hole.Expanded) :
    Between (fun column => (hole.fill column).slices)
      (lowerColumn hole.before.length hole.first) :=
  ((between_lowerFrom hole.before hole.after).comp fun column => hole.around column).trans
    (between_around expanded _ 0)

theorem lowerColumn_around_of_marked (marked : ¬ hole.Expanded) (source offset : Nat) :
    lowerColumn source offset (hole.around column) =
      lowerColumn source offset (hole.around column') := by
  induction hole generalizing offset with
  | here wires before after => exact absurd trivial marked
  | inside wires before after above gate below inner ih =>
    by_cases plain : gate.exports = none ∧ ¬ gate.inert
    · refine (between_lowerColumn plain.1 plain.2).congr ?_
      refine (between_lowerColumns source (above.length + offset) inner.before inner.after).congr ?_
      exact ih (fun expanded => marked ⟨plain, expanded⟩) _
    · exact lowerColumn_holding_of_marked plain

theorem slices_fill_of_marked (marked : ¬ hole.Expanded) :
    (hole.fill column).slices = (hole.fill column').slices :=
  (between_lowerFrom hole.before hole.after).congr (lowerColumn_around_of_marked marked _ _)

end Hole

end CircuitGrid
