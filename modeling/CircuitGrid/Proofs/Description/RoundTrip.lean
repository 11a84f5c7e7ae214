import CircuitGrid.Proofs.Description.Decoding
import CircuitGrid.Proofs.Description.Encoding
import CircuitGrid.Proofs.Zeros

/-!
# Descriptions that lead back to their circuit

A description leads back to its circuit unless a built-in gate in it is hidden: a nested circuit
names a built-in gate by an id that is defined around it for another gate. The height of a gate with
a matrix is not written, so it has to be the one that the number of entries gives.

* `Sheet.avoids`: the built-in gates of a description are not hidden;
* `Gate.Sized`: the height of a gate is that of its matrix;
* `Circuit.Describable`: the circuits that have a description;
* **`Circuit.Describable.decode_encode_iff`**: when a description leads back to its circuit.
-/

namespace CircuitGrid

/-! ## Hidden ids -/

mutual

/-- Whether the circuit of a definition avoids the ids that are taken. -/
def Definition.avoids (taken : List String) : Definition → Bool
  | ⟨_, _, _, _, circuit, _, _, _⟩ =>
    match circuit with
    | some body => Sheet.avoids taken body
    | none => true
termination_by structural d => d

/-- Whether the cells of a sheet avoid the ids that are taken around it, unless the sheet defines
them itself. -/
def Sheet.avoids (taken : List String) : Sheet Definition → Bool
  | ⟨columns, gates, _⟩ =>
    Definition.allAvoid taken gates && columns.all fun cells => cells.all fun
      | .empty => true
      | .gate id => gates.any (·.id == id) || !taken.contains id
termination_by structural d => d

/-- Whether definitions avoid the ids that are taken around them and by those before them. -/
def Definition.allAvoid (taken : List String) : List Definition → Bool
  | [] => true
  | d :: rest => Definition.avoids taken d && Definition.allAvoid (d.id :: taken) rest
termination_by structural definitions => definitions

end

namespace Scope

/-- The ids that are defined. -/
def ids (scope : Scope) : List String := scope.map Prod.fst

/-- No id is defined for the built-in gate that it stands for anyway. -/
def Custom (scope : Scope) : Prop :=
  ∀ id g, (id, g) ∈ scope → ∀ entry, Catalog.find? id = some entry → ¬ entry.Same g

theorem Custom.nil : Custom [] := nofun

theorem Custom.cons {scope : Scope} (custom : scope.Custom) {g h : Gate} {id : String}
    (same : h.Same g) (id_eq : id = g.id) (own : isBuiltIn g = false) :
    Custom ((id, h) :: scope) := by
  rintro id' g' inside entry found entrySame
  rcases List.mem_cons.mp inside with first | later
  · cases first
    subst id_eq
    rw [isBuiltIn_iff.mpr ⟨entry, found, entrySame.trans same⟩] at own
    cases own
  · exact custom id' g' later entry found entrySame

theorem lookup_eq_none_iff {scope : Scope} {id : String} : scope.lookup id = none ↔ id ∉ scope.ids := by
  rw [List.lookup_eq_none_iff, ids, List.mem_map]
  simp only [bne_iff_ne, ne_eq, not_exists, not_and]
  exact ⟨fun h p inside same => h p inside same.symm, fun h p inside same => h p inside same.symm⟩

end Scope

/-! ## Gates -/

/-- The height of a payload is that of its matrix. -/
def Gate.Sized (g : Gate) : Prop :=
  g.role = .unitary → ∀ m, g.matrix = some m → (Matrix.wires? m.length).map (max · 1) = some g.height

theorem Gate.Sized.of_same {g h : Gate} (same : g.Same h) (sized : h.Sized) : g.Sized := by
  intro unitary m matrix
  have role : h.role = .unitary := (unitary ▸ same.role).eq fun _ => nofun
  have matrices := same.matrix
  rw [matrix] at matrices
  cases found : h.matrix with
  | none =>
    rw [found] at matrices
    cases matrices
  | some m' =>
    rw [found] at matrices
    have length := (beq_list_iff.mp matrices).length_eq
    rw [same.height, length]
    exact sized role m' found

theorem nestedGate_of_fits {id title : String} {height : Nat} {body : Circuit} (pos : 0 < height)
    (fits : body.wires ≤ height) : nestedGate id title (some height) body =
      ⟨id, title, .nested body, height, none, none, none, false, pos⟩ := by
  have low : max body.wires 1 ≤ height := by omega
  have height_eq : max height 1 = height := by omega
  simp only [nestedGate, Gate.nested, Gate.withHeight, Gate.basic, low, if_true, height_eq]

theorem body?_nestedGate (id title : String) (height : Option Nat) (body : Circuit) :
    (nestedGate id title height body).body? = some body := by
  unfold nestedGate
  cases height with
  | none => rfl
  | some height =>
    dsimp only
    split <;> rfl

section decode

variable (scope : Scope) (id title : String) (exports : Option Export)

theorem Definition.decode_nested_eq_ok {height : Nat} {description : Description} {g : Gate} :
    Definition.decode scope
      ⟨id, some title, none, some height, some description, none, exports, none⟩ = .ok g ↔
        ∃ body, Sheet.decode scope description = .ok body ∧
          { nestedGate id title (some height) body with
            exports := exports.or (nestedGate id title (some height) body).exports } = g := by
  rw [Definition.decode, Definition.decodeIn, Sheet.decode]
  cases Sheet.decodeIn .unlimited scope description with
  | error stop => exact iff_of_false nofun nofun
  | ok body =>
    constructor
    · intro decoded
      cases decoded
      exact ⟨body, rfl, rfl⟩
    · rintro ⟨_, found, rfl⟩
      cases found
      rfl

theorem Definition.decode_matrix (m : Matrix) :
    Definition.decode scope
      ⟨id, some title, none, none, none, some (m.map fun z => (z.re, z.im)), exports, none⟩ =
        match Matrix.wires? m.length with
        | none => .error (.fault (.invalidMatrix id (.notSquare m.length)))
        | some wires => .ok ({ Gate.basic id title with
            matrix := some m, exports := exports.or none }.withHeight wires) := by
  rw [Definition.decode, Definition.decodeIn]
  simp only [matrixGate, List.length_map]
  cases Matrix.wires? m.length with
  | none => rfl
  | some wires => simp [Function.comp_def, Gate.withHeight, Gate.basic, pure, Except.pure]

end decode

theorem Gate.forall_body {g : Gate} (flat : g.body? = none) {p : Circuit → Prop} :
    ∀ body, g.body? = some body → p body := by
  rw [flat]
  simp

/-- The gate of the definition of a gate: it is the same gate if its height follows from its matrix
and its circuit is that of its description. -/
theorem Gate.Definable.decode_encode_iff {g : Gate} (definable : g.Definable) (self : g.Same g)
    (valid : checkGate g = .ok ()) {d : Definition} (encoded : g.encode = .ok d) {scope : Scope} :
    (∃ g', d.decode scope = .ok g' ∧ g'.Same g) ↔ g.Sized ∧ ∀ body, g.body? = some body →
      ∃ description, Grid.encode body = .ok description ∧
        ∃ body', Sheet.decode scope description = .ok body' ∧ body' == body := by
  have kept : g.exports.or none == g.exports := by
    rw [Option.or_none]
    exact self.exports
  cases definable with
  | @nonLocal id title payload exports matrix pos standard =>
    cases encoded
    refine iff_of_true ⟨_, rfl, rfl, rfl, .nonLocal payload, rfl, kept, standard, rfl, rfl⟩
      ⟨fun unitary => ?_, Gate.forall_body rfl⟩
    cases unitary
  | @nested id title body height exports pos =>
    obtain ⟨description, described, done⟩ := Except.bind_eq_ok.mp encoded
    cases done
    have bodyFits : body.wires ≤ height := ((checkGate_eq_ok.mp valid).2 body rfl).1
    simp only [Definition.decode_nested_eq_ok]
    constructor
    · rintro ⟨_, ⟨body', decoded, rfl⟩, same⟩
      refine ⟨fun unitary => ?_, fun _ inside => ?_⟩
      · cases unitary
      · cases inside
        obtain ⟨_, inside, bodies⟩ := same.body (body?_nestedGate id title (some height) body')
        cases inside
        exact ⟨description, described, body', decoded, bodies⟩
    · rintro ⟨-, inside⟩
      obtain ⟨description', described', body', decoded, bodies⟩ := inside body rfl
      rw [described] at described'
      cases described'
      have wires := (Circuit.beq_iff.mp bodies).1
      refine ⟨⟨id, title, .nested body', height, exports.or none, none, none, false, pos⟩, ?_, ?_⟩
      · refine ⟨body', decoded, ?_⟩
        simp only [nestedGate_of_fits pos (wires ▸ bodyFits)]
      · exact ⟨rfl, rfl, .nested bodies, rfl, kept, rfl, rfl, rfl⟩
  | @matrix id title m height exports pos =>
    cases encoded
    have sized : Gate.Sized ⟨id, title, .unitary, height, exports, some m, none, false, pos⟩ ↔
        (Matrix.wires? m.length).map (max · 1) = some height :=
      ⟨fun sized => sized rfl m rfl, fun tall _ _ found => by cases found; exact tall⟩
    rw [Definition.decode_matrix, sized, and_iff_left (Gate.forall_body rfl)]
    cases Matrix.wires? m.length with
    | none =>
      refine iff_of_false ?_ (by simp)
      rintro ⟨_, decoded, -⟩
      cases decoded
    | some wires =>
      rw [Option.map_some, Option.some.injEq]
      constructor
      · rintro ⟨g', decoded, same⟩
        cases decoded
        exact same.height
      · intro height_eq
        exact ⟨_, rfl, rfl, rfl, .unitary, height_eq, kept, self.matrix, rfl, rfl⟩
  | @exported id title e height pos =>
    cases encoded
    have height_eq : max height 1 = height := by omega
    refine iff_of_true ⟨_, rfl, rfl, rfl, .unitary, height_eq, kept, rfl, rfl, rfl⟩
      ⟨fun _ _ matrix => ?_, Gate.forall_body rfl⟩
    cases matrix

/-! ## Circuits -/

/-- A circuit that has a description: it is well formed, equal ids are those of equal gates, at each
level by itself, and the gates that are not built in have definitions. -/
inductive Circuit.Describable : Circuit → Prop
  | intro {c : Circuit} (valid : checkCircuit c = .ok ())
      (ids : ∀ g h, c.At g → c.At h → g.id = h.id → g == h)
      (gates : ∀ g, c.At g → isBuiltIn g = false → g.Definable)
      (bodies : ∀ g body, c.At g → g.body? = some body → Describable body) : Describable c

/-- Every payload that a circuit holds has the height of its matrix, built-in gates apart. -/
def Circuit.Sized (c : Circuit) : Prop := ∀ g, c.Holds g → isBuiltIn g = false → g.Sized

/-- The description of a circuit leads back to it exactly when the payloads it holds have the
heights of their matrices and no built-in gate is hidden. -/
def Circuit.RoundTrips (c : Circuit) : Prop :=
  ∃ d, c.encode = .ok d ∧ ∀ outer : Scope, outer.Custom →
    ((∃ c', Sheet.decode outer d = .ok c' ∧ c' == c) ↔ c.Sized ∧ d.avoids outer.ids)

theorem Circuit.Sized.of_beq {c c' : Circuit} (same : c == c') (sized : c'.Sized) : c.Sized := by
  intro g held custom
  obtain ⟨g', held', gates⟩ := held.of_beq same
  refine .of_same gates (sized g' held' ?_)
  rw [Bool.eq_false_iff] at custom ⊢
  exact fun builtIn => custom (gates.symm.isBuiltIn builtIn)

theorem Definition.avoids_iff {taken : List String} {d : Definition} :
    d.avoids taken ↔ ∀ description, d.circuit = some description → description.avoids taken := by
  obtain ⟨id, name, symbol, height, circuit, matrix, exports, nonLocal⟩ := d
  cases circuit <;> simp [Definition.avoids]

/-- The circuit in the definition of a gate is the description of the circuit in the gate. -/
theorem Gate.circuit_of_encode {g : Gate} {d : Definition} (encoded : g.encode = .ok d)
    {description : Description} : d.circuit = some description ↔
      ∃ body, g.body? = some body ∧ Grid.encode body = .ok description := by
  obtain ⟨id, title, role, height, exports, matrix, entangler, inert, pos⟩ := g
  cases role with
  | nested body =>
    obtain ⟨description', described, done⟩ := Except.bind_eq_ok.mp encoded
    cases done
    constructor
    · intro found
      cases found
      exact ⟨body, rfl, described⟩
    · rintro ⟨_, inside, described'⟩
      cases inside
      rw [described] at described'
      exact congrArg some (Except.ok.inj described')
  | nonLocal payload =>
    cases encoded
    exact iff_of_false nofun fun ⟨_, inside, _⟩ => nomatch inside
  | unitary =>
    refine iff_of_false (fun found => ?_) fun ⟨_, inside, _⟩ => nomatch inside
    cases matrix <;> cases exports <;> cases encoded <;> cases found
  | _ => cases encoded

/-- The definition of a gate leads back to it when its circuit does. -/
theorem Gate.Definable.decode_iff {g : Gate} (definable : g.Definable) (self : g.Same g)
    (valid : checkGate g = .ok ()) (bodies : ∀ body, g.body? = some body → body.RoundTrips)
    {d : Definition} (encoded : g.encode = .ok d) {scope : Scope} (custom : scope.Custom) :
    (∃ g', d.decode scope = .ok g' ∧ g'.Same g) ↔
      (g.Sized ∧ ∀ body, g.body? = some body → body.Sized) ∧ d.avoids scope.ids := by
  rw [definable.decode_encode_iff self valid encoded, and_assoc, Definition.avoids_iff]
  refine and_congr_right fun _ => ?_
  constructor
  · intro inside
    refine ⟨fun body nested => ?_, fun description found => ?_⟩
    · obtain ⟨description, described, decoded⟩ := inside body nested
      obtain ⟨_, described', iff⟩ := bodies body nested
      cases described.symm.trans described'
      exact ((iff scope custom).mp decoded).1
    · obtain ⟨body, nested, described⟩ := (Gate.circuit_of_encode encoded).mp found
      obtain ⟨_, described', decoded⟩ := inside body nested
      cases described.symm.trans described'
      obtain ⟨_, described', iff⟩ := bodies body nested
      cases described.symm.trans described'
      exact ((iff scope custom).mp decoded).2
  · rintro ⟨sized, avoids⟩ body nested
    obtain ⟨description, described, iff⟩ := bodies body nested
    refine ⟨description, described, (iff scope custom).mpr ⟨sized body nested, ?_⟩⟩
    exact avoids description ((Gate.circuit_of_encode encoded).mpr ⟨body, nested, described⟩)

/-- Definitions taken in order lead back to their gates when each does. -/
theorem Definition.decoded_iff {gs : List Gate} {ds : List Definition}
    (encoded : List.Forall₂ (fun g d => g.encode = .ok d) gs ds)
    (custom : ∀ g ∈ gs, isBuiltIn g = false)
    (each : ∀ g ∈ gs, ∀ d, g.encode = .ok d → ∀ scope : Scope, scope.Custom →
      ((∃ g', d.decode scope = .ok g' ∧ g'.Same g) ↔
        (g.Sized ∧ ∀ body, g.body? = some body → body.Sized) ∧ d.avoids scope.ids))
    {scope : Scope} (scopeCustom : scope.Custom) :
    (∃ gs', Definition.Decoded scope ds gs' ∧ List.Forall₂ Gate.Same gs' gs) ↔
      (∀ g ∈ gs, g.Sized ∧ ∀ body, g.body? = some body → body.Sized) ∧
        Definition.allAvoid scope.ids ds := by
  induction encoded generalizing scope with
  | nil => exact iff_of_true ⟨[], .nil, .nil⟩ ⟨nofun, rfl⟩
  | @cons g d gs ds first _ ih =>
    have id := Gate.id_of_encode first
    have own := custom g List.mem_cons_self
    have step := each g List.mem_cons_self d first scope scopeCustom
    have rest : ∀ g' : Gate, g'.Same g → _ := fun g' same =>
      ih (fun h inside => custom h (List.mem_cons_of_mem _ inside))
        (fun h inside => each h (List.mem_cons_of_mem _ inside))
        (scopeCustom.cons same id own)
    rw [List.forall_mem_cons, Definition.allAvoid, Bool.and_eq_true]
    constructor
    · rintro ⟨_, _ | ⟨decoded, others⟩, _ | ⟨same, sames⟩⟩
      obtain ⟨sized, avoids⟩ := step.mp ⟨_, decoded, same⟩
      obtain ⟨allSized, allAvoid⟩ := (rest _ same).mp ⟨_, others, sames⟩
      exact ⟨⟨sized, allSized⟩, avoids, allAvoid⟩
    · rintro ⟨⟨sized, allSized⟩, avoids, allAvoid⟩
      obtain ⟨g', decoded, same⟩ := step.mpr ⟨sized, avoids⟩
      obtain ⟨gs', others, sames⟩ := (rest g' same).mpr ⟨allSized, allAvoid⟩
      exact ⟨g' :: gs', .cons decoded others, .cons same sames⟩

/-- A sheet leads back to a circuit when the id of each of its gates stands for that gate. -/
theorem Circuit.decode_iff_resolve {c : Circuit} (valid : checkCircuit c = .ok ()) {outer : Scope}
    {ds : List Definition} :
    (∃ c', Sheet.decode outer ⟨c.columns.map cellsOf, ds, some c.wires⟩ = .ok c' ∧ c' == c) ↔
      ∃ gs, Definition.Decoded outer ds gs ∧
        ∀ g, c.At g → ∃ g', (outer.extend ds gs).resolve g.id = .ok g' ∧ g'.Same g := by
  simp only [Sheet.decode_eq_ok fun column inside =>
    ((checkCircuit_eq_ok.mp valid).1 column inside).length_eq]
  constructor
  · rintro ⟨c', ⟨gs, decoded, -, resolved, -⟩, same⟩
    refine ⟨gs, decoded, fun g ⟨column, inColumns, inColumn⟩ => ?_⟩
    obtain ⟨i, bound, rfl⟩ := List.mem_iff_getElem.mp inColumns
    obtain ⟨row, inside, slot⟩ := List.mem_iff_getElem.mp inColumn
    have bound' : i < c'.columns.length := resolved.length_eq ▸ bound
    have cells := resolved.get bound bound'
    have inside' : row < (c'.columns[i]).length := cells.length_eq ▸ inside
    have resolves := cells.get inside inside'
    have equal := ((Circuit.beq_iff.mp same).2.get bound' bound).get inside' inside
    simp only [List.get_eq_getElem, slot] at resolves equal
    generalize c'.columns[i][row] = cell at resolves equal
    cases resolves with
    | some resolves =>
      cases equal with
      | some equal => exact ⟨_, resolves, equal⟩
  · rintro ⟨gs, decoded, each⟩
    choose! meaning resolves equal using each
    let c' : Circuit := ⟨c.wires, c.columns.map fun column => column.map (Option.map meaning)⟩
    have same : c' == c := by
      rw [Circuit.beq_iff]
      refine ⟨rfl, ?_⟩
      rw [List.forall₂_map_left_iff, List.forall₂_same]
      intro column inColumns
      rw [Column.Same, List.forall₂_map_left_iff, List.forall₂_same]
      rintro (_ | g) inColumn
      · exact .none
      · exact .some (equal g ⟨column, inColumns, inColumn⟩)
    refine ⟨c', ⟨gs, decoded, rfl, ?_, checkCircuit_of_beq same valid⟩, same⟩
    rw [List.forall₂_map_right_iff, List.forall₂_same]
    intro column inColumns
    rw [Column.Resolved, List.forall₂_map_right_iff, List.forall₂_same]
    rintro (_ | g) inColumn
    · exact .none
    · exact .some (resolves g ⟨column, inColumns, inColumn⟩)

theorem Definition.Decoded.length_eq {scope : Scope} {ds : List Definition} {gs : List Gate}
    (decoded : Definition.Decoded scope ds gs) : ds.length = gs.length := by
  induction decoded with
  | nil => rfl
  | cons _ _ ih => exact congrArg (· + 1) ih

section level

variable {c : Circuit} (ids : ∀ g h, c.At g → c.At h → g.id = h.id → g == h)
  {ds : List Definition} (encoded : List.Forall₂ (fun g d => g.encode = .ok d) c.customs ds)

include encoded in
theorem Circuit.ids_of_encoded : ds.map (·.id) = c.customs.map (·.id) := by
  generalize c.customs = gs at encoded
  induction encoded with
  | nil => rfl
  | cons first _ ih => rw [List.map_cons, List.map_cons, ih, Gate.id_of_encode first]

include ids encoded in
/-- The id of a built-in gate of a circuit is not defined by its description. -/
theorem Circuit.not_mem_of_isBuiltIn {g : Gate} (inside : c.At g) (builtIn : isBuiltIn g) :
    g.id ∉ ds.map (·.id) := by
  rw [Circuit.ids_of_encoded encoded, List.mem_map]
  rintro ⟨first, defined, id⟩
  obtain ⟨inside', custom⟩ := Circuit.of_mem_customs defined
  rw [(Gate.beq_iff.mp (ids g first inside inside' id.symm)).isBuiltIn builtIn] at custom
  cases custom

include encoded in
/-- The id of a gate that a description defines stands for what its definition leads to. -/
theorem Circuit.resolve_customs {outer : Scope} {gs : List Gate} {i : Nat} (bound : i < gs.length)
    (bound' : i < c.customs.length) :
    (outer.extend ds gs).resolve c.customs[i].id = .ok gs[i] := by
  have nodup : (ds.map (·.id)).Nodup := by
    rw [Circuit.ids_of_encoded encoded]
    exact nodup_newGates
  have bound'' : i < ds.length := encoded.length_eq ▸ bound'
  have inside : (ds[i], gs[i]) ∈ ds.zip gs := by
    rw [← List.getElem_zip (h := by simp [bound, bound''])]
    exact List.getElem_mem _
  have found : (outer.extend ds gs).lookup ds[i].id = some gs[i] :=
    Scope.lookup_extend_of_mem nodup inside
  have id : ds[i].id = c.customs[i].id := Gate.id_of_encode (encoded.get bound' bound'')
  rw [Scope.resolve, ← id, found]

include ids encoded in
/-- The ids of a circuit stand for its gates when its definitions do and no built-in gate is
hidden. -/
theorem Circuit.resolve_iff {outer : Scope} (outerCustom : outer.Custom) {gs : List Gate}
    (decoded : Definition.Decoded outer ds gs) :
    (∀ g, c.At g → ∃ g', (outer.extend ds gs).resolve g.id = .ok g' ∧ g'.Same g) ↔
      List.Forall₂ Gate.Same gs c.customs ∧ ∀ g, c.At g → isBuiltIn g → g.id ∉ outer.ids := by
  constructor
  · intro each
    refine ⟨List.forall₂_iff_get.mpr ⟨?_, fun i bound bound' => ?_⟩, fun g inside builtIn => ?_⟩
    · rw [← decoded.length_eq, encoded.length_eq]
    · have inside := (Circuit.of_mem_customs (List.getElem_mem bound')).1
      obtain ⟨g', resolves, same⟩ := each _ inside
      cases resolves.symm.trans (Circuit.resolve_customs encoded bound bound')
      exact same
    · obtain ⟨g', resolves, same⟩ := each g inside
      have undefined := Circuit.not_mem_of_isBuiltIn ids encoded inside builtIn
      rw [Scope.resolve, Scope.lookup_extend_of_not_mem undefined] at resolves
      rw [← Scope.lookup_eq_none_iff]
      cases found : outer.lookup g.id with
      | none => rfl
      | some hidden =>
        rw [found] at resolves
        cases resolves
        obtain ⟨entry, known, entrySame⟩ := isBuiltIn_iff.mp builtIn
        obtain ⟨before, after, outer_eq, -⟩ := List.lookup_eq_some_iff.mp found
        have mem : (g.id, g') ∈ outer := by simp [outer_eq]
        exact absurd (entrySame.trans same.symm) (outerCustom g.id g' mem entry known)
  · rintro ⟨sames, plain⟩ g inside
    cases custom : isBuiltIn g with
    | true =>
      obtain ⟨entry, known, entrySame⟩ := isBuiltIn_iff.mp custom
      refine ⟨entry, ?_, entrySame⟩
      rw [Scope.resolve, Scope.lookup_extend_of_not_mem
        (Circuit.not_mem_of_isBuiltIn ids encoded inside custom),
        Scope.lookup_eq_none_iff.mpr (plain g inside custom), known]
    | false =>
      obtain ⟨first, defined, id⟩ := Circuit.exists_customs inside custom
      obtain ⟨i, bound, rfl⟩ := List.mem_iff_getElem.mp defined
      have bound' : i < gs.length := sames.length_eq ▸ bound
      refine ⟨gs[i], id ▸ Circuit.resolve_customs encoded bound' bound, ?_⟩
      exact (sames.get bound' bound).trans (Gate.beq_iff.mp
        (ids _ g (Circuit.of_mem_customs defined).1 inside id))

include ids in
/-- Whether all payloads have the heights of their matrices is seen at the first uses of ids. -/
theorem Circuit.sized_iff : c.Sized ↔
    ∀ g ∈ c.customs, g.Sized ∧ ∀ body, g.body? = some body → body.Sized := by
  constructor
  · intro sized g defined
    obtain ⟨inside, custom⟩ := Circuit.of_mem_customs defined
    exact ⟨sized g (.here inside) custom, fun body nested h held => sized h (.inside inside nested held)⟩
  · intro each h held custom
    obtain ⟨g, inside, which⟩ := held.cases_at
    have own : isBuiltIn g = false := by
      rcases which with rfl | ⟨body, nested, -⟩
      · exact custom
      · rw [Bool.eq_false_iff]
        exact fun builtIn => (Gate.role_of_isBuiltIn builtIn).1 body (Gate.role_of_body? nested)
    obtain ⟨first, defined, id⟩ := Circuit.exists_customs inside own
    have same := Gate.beq_iff.mp (ids g first inside (Circuit.of_mem_customs defined).1 id.symm)
    obtain ⟨sized, bodies⟩ := each first defined
    rcases which with rfl | ⟨body, nested, held⟩
    · exact .of_same same sized
    · obtain ⟨body', nested', equal⟩ := same.body nested
      exact Circuit.Sized.of_beq equal (bodies body' nested') h held custom

theorem mem_cellsOf {column : Column Gate} {id : String} :
    .gate id ∈ cellsOf column ↔ ∃ g, some g ∈ column ∧ g.id = id := by
  obtain ⟨count, written⟩ := exists_cellsOf_append column
  have mem : .gate id ∈ column.map Cell.ofSlot ↔ .gate id ∈ cellsOf column := by
    rw [written, List.mem_append]
    exact or_iff_left fun inside => nomatch List.eq_of_mem_replicate inside
  rw [← mem, List.mem_map]
  constructor
  · rintro ⟨slot, inside, written⟩
    cases slot with
    | none => cases written
    | some g =>
      cases written
      exact ⟨g, inside, rfl⟩
  · rintro ⟨g, inside, rfl⟩
    exact ⟨some g, inside, rfl⟩

include ids encoded in
theorem Circuit.avoids_iff {wires : Option Nat} {taken : List String} :
    Sheet.avoids taken ⟨c.columns.map cellsOf, ds, wires⟩ ↔
      Definition.allAvoid taken ds ∧ ∀ g, c.At g → isBuiltIn g → g.id ∉ taken := by
  rw [Sheet.avoids, Bool.and_eq_true]
  refine and_congr_right fun _ => ?_
  simp only [List.all_eq_true, List.mem_map, forall_exists_index, and_imp,
    forall_apply_eq_imp_iff₂]
  constructor
  · rintro all g ⟨column, inColumns, inColumn⟩ builtIn taken
    have cell := all column inColumns (.gate g.id) (mem_cellsOf.mpr ⟨g, inColumn, rfl⟩)
    have undefined := Circuit.not_mem_of_isBuiltIn ids encoded ⟨column, inColumns, inColumn⟩ builtIn
    simp only [List.mem_map, not_exists, not_and] at undefined
    simp only [Bool.or_eq_true, List.any_eq_true, beq_iff_eq, Bool.not_eq_true',
      List.contains_eq_mem, decide_eq_false_iff_not] at cell
    rcases cell with ⟨d, inside, id⟩ | free
    · exact undefined d inside id
    · exact free taken
  · intro free column inColumns cell inCells
    cases cell with
    | empty => rfl
    | gate id =>
      obtain ⟨g, inColumn, rfl⟩ := mem_cellsOf.mp inCells
      cases custom : isBuiltIn g with
      | true => simp [free g ⟨column, inColumns, inColumn⟩ custom]
      | false =>
        obtain ⟨first, defined, id⟩ := Circuit.exists_customs ⟨column, inColumns, inColumn⟩ custom
        have inside : g.id ∈ ds.map (·.id) := by
          rw [Circuit.ids_of_encoded encoded, ← id]
          exact List.mem_map_of_mem defined
        obtain ⟨d, inDefinitions, id'⟩ := List.mem_map.mp inside
        simp only [Bool.or_eq_true, List.any_eq_true, beq_iff_eq]
        exact .inl ⟨d, inDefinitions, id'⟩

end level

/-- **When a description leads back to its circuit.** It does exactly when the payloads that the
circuit holds have the heights of their matrices and no built-in gate is hidden. -/
theorem Circuit.Describable.decode_encode_iff {c : Circuit} (h : c.Describable) : c.RoundTrips := by
  induction h with
  | @intro c valid ids gates _ bodies =>
    have each : ∀ g ∈ c.customs, ∀ d, g.encode = .ok d → ∀ scope : Scope, scope.Custom →
        ((∃ g', d.decode scope = .ok g' ∧ g'.Same g) ↔
          (g.Sized ∧ ∀ body, g.body? = some body → body.Sized) ∧ d.avoids scope.ids) := by
      intro g defined d encoded scope custom
      obtain ⟨inside, own⟩ := Circuit.of_mem_customs defined
      exact (gates g inside own).decode_iff (Gate.beq_iff.mp (ids g g inside inside rfl))
        ((checkCircuit_eq_ok.mp valid).2 g inside) (fun body => bodies g body inside) encoded custom
    have exist : ∀ g ∈ c.customs, ∃ d, g.encode = .ok d := by
      intro g defined
      obtain ⟨inside, own⟩ := Circuit.of_mem_customs defined
      refine (gates g inside own).encode fun body nested => ?_
      obtain ⟨d, described, -⟩ := bodies g body inside nested
      exact ⟨d, described⟩
    obtain ⟨ds, encoded⟩ := exists_forall₂ exist
    refine ⟨_, Circuit.encode_eq_ok.mpr ⟨ds, encoded, rfl⟩, fun outer custom => ?_⟩
    rw [Circuit.decode_iff_resolve valid, Circuit.sized_iff ids, Circuit.avoids_iff ids encoded]
    have definitions := Definition.decoded_iff encoded
      (fun g defined => (Circuit.of_mem_customs defined).2) each custom
    rw [← and_assoc, ← definitions]
    constructor
    · rintro ⟨gs, decoded, resolves⟩
      obtain ⟨sames, free⟩ := (Circuit.resolve_iff ids encoded custom decoded).mp resolves
      exact ⟨⟨gs, decoded, sames⟩, free⟩
    · rintro ⟨⟨gs, decoded, sames⟩, free⟩
      exact ⟨gs, decoded, (Circuit.resolve_iff ids encoded custom decoded).mpr ⟨sames, free⟩⟩

end CircuitGrid
