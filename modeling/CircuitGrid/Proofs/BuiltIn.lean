import CircuitGrid.Description.Encode
import CircuitGrid.Proofs.Nesting

/-!
# Equal gates and built-in gates

Equal gates have equal data but for their numbers, which are compared as numbers. A built-in gate
therefore has the shape and the operations of the entry of its id.

* `Gate.Same`, `Role.Same`, `Gate.beq_iff`: what equality of gates compares;
* **`isBuiltIn_iff`**: a gate is built in when it equals an entry of the catalogue.
-/

namespace CircuitGrid

/-! ## Equal gates -/

/-- Two roles are equal up to equality of the circuits in them. -/
inductive Role.Same : Role Circuit → Role Circuit → Prop
  | unitary : Same .unitary .unitary
  | control : Same .control .control
  | antiControl : Same .antiControl .antiControl
  | parity (axis : Axis) : Same (.parity axis) (.parity axis)
  | swapHalf : Same .swapHalf .swapHalf
  | nested {a b : Circuit} : a == b → Same (.nested a) (.nested b)
  | nonLocal (payload : Placeholder) : Same (.nonLocal payload) (.nonLocal payload)

/-- What equality of gates compares. -/
structure Gate.Same (g h : Gate) : Prop where
  id : g.id = h.id
  title : g.title = h.title
  role : Role.Same g.role h.role
  height : g.height = h.height
  exports : g.exports == h.exports
  matrix : g.matrix == h.matrix
  entangler : g.entangler = h.entangler
  inert : g.inert = h.inert

/-- Whether two roles are equal. -/
def Role.same : Role Circuit → Role Circuit → Bool
  | .unitary, .unitary => true
  | .control, .control => true
  | .antiControl, .antiControl => true
  | .parity a, .parity b => a == b
  | .swapHalf, .swapHalf => true
  | .nested a, .nested b => a == b
  | .nonLocal a, .nonLocal b => a == b
  | _, _ => false

theorem Role.same_iff {r s : Role Circuit} : Role.same r s ↔ Role.Same r s := by
  constructor
  · intro h
    cases r <;> cases s <;> simp only [Role.same, Bool.false_eq_true, beq_iff_eq] at h
    all_goals first | exact .nested h | (subst h; constructor) | constructor
  · intro h
    cases h <;> simp [Role.same]
    assumption

theorem Gate.same_eq (g h : Gate) : (g == h) =
    (g.id == h.id && g.title == h.title && Role.same g.role h.role && g.height == h.height &&
      g.exports == h.exports && g.matrix == h.matrix && g.entangler == h.entangler &&
      g.inert == h.inert) := by
  obtain ⟨id, title, role, height, exports, matrix, entangler, inert, pos⟩ := g
  obtain ⟨id', title', role', height', exports', matrix', entangler', inert', pos'⟩ := h
  cases role <;> cases role' <;> rfl

theorem Gate.beq_iff {g h : Gate} : g == h ↔ g.Same h := by
  rw [Gate.same_eq]
  simp only [Bool.and_eq_true, beq_iff_eq, Role.same_iff]
  constructor
  · rintro ⟨⟨⟨⟨⟨⟨⟨id, title⟩, role⟩, height⟩, exports⟩, matrix⟩, entangler⟩, inert⟩
    exact ⟨id, title, role, height, exports, matrix, entangler, inert⟩
  · rintro ⟨id, title, role, height, exports, matrix, entangler, inert⟩
    exact ⟨⟨⟨⟨⟨⟨⟨id, title⟩, role⟩, height⟩, exports⟩, matrix⟩, entangler⟩, inert⟩

/-- The data of an export that equality compares exactly. -/
theorem Export.beq_iff {e f : Export} :
    e == f ↔ e.uncontrolled = f.uncontrolled ∧ e.controlled = f.controlled ∧
      e.params == f.params ∧ e.controlledParams == f.controlledParams := by
  obtain ⟨op, controlled, params, controlledParams⟩ := e
  obtain ⟨op', controlled', params', controlledParams'⟩ := f
  change instBEqExport.beq _ _ = true ↔ _
  simp [instBEqExport.beq]

theorem Role.Same.eq {r s : Role Circuit} (h : Role.Same r s) (leaf : ∀ body, r ≠ .nested body) :
    s = r := by
  cases h with
  | nested => exact absurd rfl (leaf _)
  | _ => rfl

/-- An export without angles is equal to itself only. -/
theorem Export.eq_of_beq {op : Op} {controlled : Option Op} {exports : Option Export}
    (h : some ⟨op, controlled, [], []⟩ == exports) : exports = some ⟨op, controlled, [], []⟩ := by
  cases exports with
  | none => cases h
  | some e =>
    obtain ⟨uncontrolled, controlled', params, controlledParams⟩ := e
    rw [Option.some_beq_some, Export.beq_iff] at h
    obtain ⟨rfl, rfl, plain, plain'⟩ := h
    cases params with
    | cons => cases plain
    | nil =>
      cases controlledParams with
      | cons => cases plain'
      | nil => rfl

/-! ## Built-in gates -/

/-- **A gate is built in when it equals the entry of its id.** -/
theorem isBuiltIn_iff {g : Gate} :
    isBuiltIn g ↔ ∃ entry, Catalog.find? g.id = some entry ∧ entry.Same g := by
  unfold isBuiltIn
  cases Catalog.find? g.id with
  | none => simp
  | some entry => simp [Gate.beq_iff]

/-- The gate is the built-in one with the given id. -/
def Gate.isCell (id : String) (g : Gate) : Bool := isBuiltIn g && g.id == id

theorem Gate.isCell_iff {id : String} {g entry : Gate} (found : Catalog.find? id = some entry) :
    g.isCell id ↔ entry.Same g := by
  simp only [isCell, Bool.and_eq_true, isBuiltIn_iff, beq_iff_eq]
  have id_eq : entry.id = id := by
    simpa using List.find?_some found
  constructor
  · rintro ⟨⟨entry', found', same⟩, rfl⟩
    rw [found, Option.some.injEq] at found'
    rw [found']
    exact same
  · intro same
    rw [same.id] at id_eq
    exact ⟨⟨entry, by rw [id_eq, found], same⟩, id_eq⟩

theorem Gate.role_of_isBuiltIn {g : Gate} (h : isBuiltIn g) :
    (∀ body, g.role ≠ .nested body) ∧ ∀ payload, g.role ≠ .nonLocal payload := by
  obtain ⟨entry, found, same⟩ := isBuiltIn_iff.mp h
  have plain : Catalog.gates.all fun entry => entry.body?.isNone && entry.placeholder?.isNone := rfl
  have role := same.role
  have entryPlain := List.all_eq_true.mp plain entry (List.mem_of_find?_eq_some found)
  unfold Gate.body? Gate.placeholder? at entryPlain
  generalize entry.role = entryRole at role entryPlain
  constructor <;> intro payload isRole <;> rw [isRole] at role <;> cases role <;> cases entryPlain

/-! ## What built-in gates are lowered to -/

/-- A test that the built-in gates pass whose entries pass it. -/
theorem Gate.entry_passes {g : Gate} (h : isBuiltIn g) (test : Gate → Bool)
    (all : Catalog.gates.all test) : ∃ entry : Gate, entry.Same g ∧ test entry := by
  obtain ⟨entry, found, same⟩ := isBuiltIn_iff.mp h
  exact ⟨entry, same, List.all_eq_true.mp all entry (List.mem_of_find?_eq_some found)⟩

theorem Gate.exports_of_entangler {g : Gate} {kind : Entangler} (h : isBuiltIn g)
    (known : g.entangler = some kind) : g.exports = some ⟨kind.op, none, [], []⟩ := by
  obtain ⟨entry, same, passes⟩ := Gate.entry_passes h (fun entry =>
    entry.entangler.all fun kind => some ⟨kind.op, none, [], []⟩ == entry.exports) rfl
  have exports := same.exports
  rw [same.entangler, known] at passes
  rw [Export.eq_of_beq passes] at exports
  exact Export.eq_of_beq exports

/-- A plain built-in gate has one export only. -/
theorem Gate.exports_of_uncontrolled {g : Gate} {e : Export} (h : isBuiltIn g)
    (exports : g.exports = some e) (op controlled : Op)
    (all : Catalog.gates.all fun entry => entry.exports.all fun e =>
      e.uncontrolled != op || some ⟨op, some controlled, [], []⟩ == some e)
    (uncontrolled : e.uncontrolled = op) : e = ⟨op, some controlled, [], []⟩ := by
  obtain ⟨entry, same, passes⟩ := Gate.entry_passes h _ all
  have equal := same.exports
  rw [exports] at equal
  cases found : entry.exports with
  | none =>
    rw [found] at equal
    cases equal
  | some e' =>
    rw [found] at equal passes
    have uncontrolled' : e'.uncontrolled = op := by
      rw [Option.some_beq_some, Export.beq_iff] at equal
      exact equal.1.trans uncontrolled
    have plain : some ⟨op, some controlled, [], []⟩ == some e' := by
      simpa [uncontrolled'] using passes
    rw [Export.eq_of_beq plain] at equal
    exact Option.some.inj (Export.eq_of_beq equal)

theorem Gate.exports_of_plain {g : Gate} {e : Export} (h : isBuiltIn g)
    (exports : g.exports = some e) : (e.uncontrolled = .x → e = ⟨.x, some .cx, [], []⟩) ∧
      (e.uncontrolled = .z → e = ⟨.z, some .cz, [], []⟩) :=
  ⟨Gate.exports_of_uncontrolled h exports .x .cx rfl,
    Gate.exports_of_uncontrolled h exports .z .cz rfl⟩

theorem Gate.inert_of_swapHalf {g : Gate} (h : isBuiltIn g) (role : g.role = .swapHalf) :
    g.inert = false := by
  obtain ⟨entry, same, passes⟩ := Gate.entry_passes h (fun entry =>
    !entry.isSwapHalf || !entry.inert) rfl
  have roles := same.role
  rw [role] at roles
  rw [← same.inert]
  unfold Gate.isSwapHalf at passes
  generalize entry.role = r at roles passes
  cases roles
  simpa using passes

end CircuitGrid
