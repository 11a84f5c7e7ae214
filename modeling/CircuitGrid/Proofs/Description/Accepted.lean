import CircuitGrid.Proofs.Description.RoundTrip

/-!
# Circuits that come from descriptions

A circuit that comes from a description is well formed, an id stands for one gate of it, and its
gates are built in or come from definitions, which give every gate the height of its matrix.

* `Circuit.Accepted`, `Gate.Accepted`, `Scope.Accepted`: what comes from descriptions;
* **`Sheet.accepted_of_decode`**: the circuit of a description is one of these;
* `Circuit.Accepted.describable_of_beq`: what is equal to such a circuit has a description;
* `Circuit.Accepted.describable`, `Circuit.Accepted.sized`: so does the circuit itself.
-/

namespace CircuitGrid

/-- A circuit that comes from a description: it is well formed, an id stands for one gate, at each
level by itself, and every gate is built in or has a definition. -/
inductive Circuit.Accepted : Circuit → Prop
  | intro {c : Circuit} (valid : checkCircuit c = .ok ())
      (ids : ∀ g h, c.At g → c.At h → g.id = h.id → g = h)
      (gates : ∀ g, c.At g → Catalog.find? g.id = some g ∨ g.Definable ∧ g.Sized)
      (bodies : ∀ g body, c.At g → g.body? = some body → Accepted body) : Accepted c

/-- A gate that comes from a definition. -/
structure Gate.Accepted (g : Gate) : Prop where
  definable : g.Definable
  sized : g.Sized
  bodies : ∀ body, g.body? = some body → body.Accepted

/-- Every gate of such a circuit, at every level, is built in or comes from a definition. -/
theorem Circuit.Accepted.gate {c : Circuit} (accepted : c.Accepted) {g : Gate} (held : c.Holds g) :
    Catalog.find? g.id = some g ∨ g.Definable := by
  induction held with
  | here inside =>
    obtain ⟨-, -, gates, -⟩ := accepted
    exact (gates _ inside).imp_right And.left
  | inside inside body _ ih =>
    obtain ⟨-, -, -, bodies⟩ := accepted
    exact ih (bodies _ _ inside body)

/-- A scope of gates that come from definitions, under their ids. -/
def Scope.Accepted (scope : Scope) : Prop := ∀ id g, (id, g) ∈ scope → g.id = id ∧ g.Accepted

/-! ## Gates of definitions -/

theorem Gate.Accepted.nonLocal (id title : String) (payload : Placeholder)
    (exports : Option Export) :
    Gate.Accepted { Gate.nonLocal id payload with title := title, exports := exports } where
  definable := .nonLocal (show some payload.kind.matrix == some payload.kind.matrix by
    cases payload.kind <;> decide +kernel)
  sized := nofun
  bodies := nofun

theorem nestedGate_eq (id title : String) (height : Option Nat) (body : Circuit) :
    nestedGate id title height body = ⟨id, title, .nested body,
      (nestedGate id title height body).height, none, none, none, false,
      (nestedGate id title height body).height_pos⟩ := by
  unfold nestedGate
  cases height with
  | none => rfl
  | some height =>
    dsimp only
    split <;> rfl

theorem Gate.Accepted.nested (id title : String) (height : Option Nat) {body : Circuit}
    (accepted : body.Accepted) (exports : Option Export) :
    Gate.Accepted { nestedGate id title height body with exports := exports } := by
  rw [nestedGate_eq]
  refine ⟨.nested, nofun, fun body' inside => ?_⟩
  cases inside
  exact accepted

theorem Gate.Accepted.matrix {id title : String} {entries : List (Float × Float)} {g : Gate}
    (decoded : matrixGate id title entries = .ok g) (exports : Option Export) :
    g.id = id ∧ Gate.Accepted { g with exports := exports } := by
  rw [matrixGate] at decoded
  split at decoded
  · cases decoded
  · next wires found =>
    cases decoded
    refine ⟨rfl, .matrix, fun _ m matrix => ?_, fun body nested => ?_⟩
    · cases matrix
      rw [List.length_map, found]
      rfl
    · cases nested

/-- The gate of a definition whose circuit is accepted. -/
theorem Definition.accepted_of_circuit {scope : Scope} {d : Definition} {g : Gate}
    (decoded : d.decode scope = .ok g) (inside : ∀ description, d.circuit = some description →
      ∀ body, Sheet.decode scope description = .ok body → body.Accepted) :
    g.id = d.id ∧ g.Accepted := by
  obtain ⟨id, name, symbol, height, circuit, matrix, exports, nonLocal⟩ := d
  cases nonLocal with
  | some payload =>
    cases decoded
    exact ⟨rfl, .nonLocal id _ payload _⟩
  | none =>
    cases circuit with
    | some description =>
      obtain ⟨body, inBody, done⟩ := Except.bind_eq_ok.mp decoded
      cases done
      have accepted := inside description rfl body inBody
      exact ⟨congrArg Gate.id (nestedGate_eq id _ height body), .nested id _ height accepted _⟩
    | none =>
      cases matrix with
      | some entries =>
        obtain ⟨gate, found, done⟩ := Except.bind_eq_ok.mp decoded
        cases done
        exact Gate.Accepted.matrix found _
      | none =>
        cases exports with
        | none => cases decoded
        | some e =>
          cases decoded
          exact ⟨rfl, .exported, nofun, nofun⟩

theorem Scope.Accepted.nil : Scope.Accepted [] := fun _ _ inside => nomatch inside

theorem Scope.Accepted.cons {scope : Scope} (accepted : scope.Accepted) {id : String} {g : Gate}
    (g_id : g.id = id) (gate : g.Accepted) : Scope.Accepted ((id, g) :: scope) := by
  intro id' g' inside
  rcases List.mem_cons.mp inside with first | later
  · cases first
    exact ⟨g_id, gate⟩
  · exact accepted id' g' later

/-- What an id stands for in a scope of accepted gates. -/
theorem Scope.Accepted.resolve {scope : Scope} (accepted : scope.Accepted) {id : String} {g : Gate}
    (found : scope.resolve id = .ok g) :
    g.id = id ∧ (Catalog.find? id = some g ∨ g.Accepted) := by
  unfold Scope.resolve at found
  split at found
  · next defined =>
    cases found
    obtain ⟨before, after, scope_eq, -⟩ := List.lookup_eq_some_iff.mp defined
    obtain ⟨g_id, gate⟩ := accepted id g (by simp [scope_eq])
    exact ⟨g_id, .inr gate⟩
  · split at found
    · next known =>
      cases found
      exact ⟨by simpa using List.find?_some known, .inl known⟩
    · cases found

/-! ## Circuits of sheets -/

theorem layOut_valid {m : Memory} {columns : List (Column Gate)} {wires : Option Nat} {c : Circuit}
    (laidOut : layOut m columns wires = .ok c) : checkCircuit c = .ok () ∧
      ∃ wires, c.columns = columns.map fun column => Column.padTo column wires := by
  unfold layOut at laidOut
  dsimp only at laidOut
  split_ifs at laidOut
  obtain ⟨valid, done⟩ := Except.andThen_eq_ok.mp laidOut
  cases done
  exact ⟨valid, _, rfl⟩

theorem Column.mem_of_mem_padTo {column : Column Gate} {wires : Nat} {g : Gate}
    (inside : some g ∈ Column.padTo column wires) : some g ∈ column := by
  rcases List.mem_append.mp inside with front | blank
  · exact List.mem_of_mem_take front
  · cases List.eq_of_mem_replicate blank

theorem exists_resolve {m : Memory} {scope : Scope} {columns : List (List Cell)}
    {columns' : List (Column Gate)} (resolved : resolveColumns m scope columns = .ok columns')
    {column' : Column Gate} (inColumns : column' ∈ columns') {g : Gate}
    (inColumn : some g ∈ column') : ∃ id, scope.resolve id = .ok g := by
  obtain ⟨cells, -, each⟩ := exists_left_of_mem (resolveColumns_eq_ok.mp resolved).1 inColumns
  obtain ⟨cell, -, resolves⟩ := exists_left_of_mem each inColumn
  cases resolves with
  | gate found => exact ⟨_, found⟩

theorem Catalog.passes {id : String} {g : Gate} (known : find? id = some g) (test : Gate → Bool)
    (all : gates.all test) : test g :=
  List.all_eq_true.mp all g (List.mem_of_find?_eq_some known)

theorem Catalog.body?_eq_none {id : String} {g : Gate} (known : find? id = some g) :
    g.body? = none :=
  Option.isNone_iff_eq_none.mp (passes known (·.body?.isNone) rfl)

/-- The circuit of a sheet whose definitions give accepted gates. -/
theorem Sheet.accepted_of_definitions {outer : Scope} (accepted : outer.Accepted)
    {s : Sheet Definition} {c : Circuit} (decoded : Sheet.decode outer s = .ok c)
    (inside : ∀ d ∈ s.gates, ∀ scope : Scope, scope.Accepted → ∀ g, d.decode scope = .ok g →
      g.id = d.id ∧ g.Accepted) : c.Accepted := by
  obtain ⟨columns, ds, wires⟩ := s
  obtain ⟨scope, defined, rest⟩ := Except.bind_eq_ok.mp decoded
  obtain ⟨columns', resolved, laidOut⟩ := Except.bind_eq_ok.mp rest
  have scopeAccepted : scope.Accepted := by
    clear decoded rest
    induction ds generalizing outer with
    | nil =>
      cases defined
      exact accepted
    | cons d ds ih =>
      obtain ⟨g, first, others⟩ := Except.bind_eq_ok.mp defined
      obtain ⟨g_id, gate⟩ := inside d List.mem_cons_self outer accepted g first
      exact ih (accepted.cons g_id gate)
        (fun d' later => inside d' (List.mem_cons_of_mem _ later)) others
  obtain ⟨valid, wires, columns_eq⟩ := layOut_valid laidOut
  have meaning : ∀ g, c.At g → scope.resolve g.id = .ok g := by
    rintro g ⟨column, inColumns, inColumn⟩
    rw [columns_eq] at inColumns
    obtain ⟨column', inColumns', rfl⟩ := List.mem_map.mp inColumns
    obtain ⟨id, found⟩ := exists_resolve resolved inColumns' (Column.mem_of_mem_padTo inColumn)
    obtain ⟨rfl, -⟩ := scopeAccepted.resolve found
    exact found
  refine .intro valid (fun g h hereG hereH same => ?_) (fun g here => ?_) fun g body here nested => ?_
  · have equal := (meaning g hereG).symm.trans (same ▸ meaning h hereH)
    exact Except.ok.inj equal
  · obtain ⟨-, known | gate⟩ := scopeAccepted.resolve (meaning g here)
    · exact .inl known
    · exact .inr ⟨gate.definable, gate.sized⟩
  · obtain ⟨-, known | gate⟩ := scopeAccepted.resolve (meaning g here)
    · rw [Catalog.body?_eq_none known] at nested
      cases nested
    · exact gate.bodies body nested

theorem Definition.accepted_of_decode (d : Definition) {scope : Scope} (accepted : scope.Accepted)
    {g : Gate} (decoded : d.decode scope = .ok g) : g.id = d.id ∧ g.Accepted := by
  induction d using Definition.nesting_induction generalizing scope g with
  | step d ih =>
    refine Definition.accepted_of_circuit decoded fun s found body inBody => ?_
    exact Sheet.accepted_of_definitions accepted inBody fun d' inside scope accepted g decoded =>
      ih s found d' inside accepted decoded

/-- **The circuit of a description** is one that comes from descriptions. -/
theorem Sheet.accepted_of_decode {outer : Scope} (accepted : outer.Accepted) {s : Sheet Definition}
    {c : Circuit} (decoded : Sheet.decode outer s = .ok c) : c.Accepted :=
  Sheet.accepted_of_definitions accepted decoded fun d _ _ accepted _ decoded =>
    d.accepted_of_decode accepted decoded

/-! ## Their descriptions -/

/-- A gate that equals a definable one is definable. -/
theorem Gate.Definable.of_same {g h : Gate} (same : g.Same h) (definable : h.Definable) :
    g.Definable := by
  obtain ⟨id, title, role, height, exports, matrix, entangler, inert, pos⟩ := g
  obtain ⟨-, -, roles, height_eq, exports_eq, matrix_eq, entangler_eq, inert_eq⟩ := same
  cases definable with
  | nonLocal standard =>
    cases roles
    cases height_eq
    cases entangler_eq
    cases inert_eq
    exact .nonLocal (PartialEquivBEq.trans standard (PartialEquivBEq.symm matrix_eq))
  | nested =>
    cases roles
    cases entangler_eq
    cases inert_eq
    cases matrix with
    | some m => cases matrix_eq
    | none => exact .nested
  | matrix =>
    cases roles
    cases entangler_eq
    cases inert_eq
    cases matrix with
    | some m => exact .matrix
    | none => cases matrix_eq
  | exported =>
    cases roles
    cases entangler_eq
    cases inert_eq
    cases matrix with
    | some m => cases matrix_eq
    | none =>
      cases exports with
      | some e => exact .exported
      | none => cases exports_eq

/-- The numbers of a circuit, at every level, are numbers. -/
def Circuit.Numeric (c : Circuit) : Prop := ∀ g, c.Holds g → ∀ x ∈ g.numbers, x == x

namespace Circuit

variable {c c' : Circuit}

theorem Numeric.body (numeric : c.Numeric) {g : Gate} (here : c.At g) {body : Circuit}
    (nested : g.body? = some body) : body.Numeric :=
  fun h held => numeric h (.inside here nested held)

/-- A circuit of numbers is equal to itself, and so are the gates in it. -/
theorem Numeric.same (numeric : c.Numeric) : ∀ g, c.At g → g.Same g := by
  induction c using Circuit.nesting_induction with
  | step c ih =>
    intro g here
    refine .refl (numeric g (.here here)) fun body nested => ?_
    exact Circuit.beq_self (ih g here body nested (numeric.body here nested))

/-- A circuit that equals an accepted one is described, and leads back to itself as far as heights
are concerned. -/
theorem Accepted.describable_of_beq (accepted : c'.Accepted) (same : c' == c) :
    c.Describable ∧ c.Sized := by
  induction accepted generalizing c with
  | @intro c' valid ids gates bodies ih =>
    have back := beq_symm same
    have builtIn {g g' : Gate} (same : g.Same g') (known : Catalog.find? g'.id = some g') :
        isBuiltIn g := isBuiltIn_iff.mpr ⟨g', by rw [same.id, known], same.symm⟩
    refine ⟨.intro (checkCircuit_of_beq back valid) (fun g h here here' id => ?_)
      (fun g here own => ?_) (fun g body here nested => ?_), fun g held own => ?_⟩
    · obtain ⟨g', inside, sameG⟩ := here.of_beq back
      obtain ⟨h', inside', sameH⟩ := here'.of_beq back
      have equal := ids g' h' inside inside' (sameG.id.symm.trans (id.trans sameH.id))
      subst equal
      exact Gate.beq_iff.mpr (sameG.trans sameH.symm)
    · obtain ⟨g', inside, sameG⟩ := here.of_beq back
      rcases gates g' inside with known | ⟨definable, -⟩
      · rw [builtIn sameG known] at own
        cases own
      · exact definable.of_same sameG
    · obtain ⟨g', inside, sameG⟩ := here.of_beq back
      obtain ⟨body', nested', bodies⟩ := sameG.body nested
      exact (ih g' body' inside nested' (beq_symm bodies)).1
    · obtain ⟨g₁, here, which⟩ := held.cases_at
      obtain ⟨g', inside, sameG⟩ := here.of_beq back
      rcases which with rfl | ⟨body, nested, held⟩
      · rcases gates g' inside with known | ⟨-, sized⟩
        · rw [builtIn sameG known] at own
          cases own
        · exact .of_same sameG sized
      · obtain ⟨body', nested', bodies⟩ := sameG.body nested
        exact (ih g' body' inside nested' (beq_symm bodies)).2 g held own

theorem Accepted.describable (h : c.Accepted) (numeric : c.Numeric) : c.Describable :=
  (h.describable_of_beq (Circuit.beq_self numeric.same)).1

theorem Accepted.sized (h : c.Accepted) (numeric : c.Numeric) : c.Sized :=
  (h.describable_of_beq (Circuit.beq_self numeric.same)).2

end Circuit

end CircuitGrid
