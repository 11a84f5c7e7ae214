import CircuitGrid.Proofs.Checked
import CircuitGrid.Proofs.Nesting
import CircuitGrid.Description.Encode

/-!
# What a circuit is described by

The description of a circuit defines the gates that are not built in, each id once, in the order in
which the ids are first used.

* `newGates`, `Circuit.customs`: the gates that a description defines;
* `Gate.Definable`: the gates that have a definition;
* **`Circuit.encode_eq`**: the description of a circuit.
-/

namespace CircuitGrid

/-- The gates of cells that are not built in, each where its id is first used. -/
def newGates (seen : List String) : List (Option Gate) → List Gate
  | [] => []
  | none :: rest => newGates seen rest
  | some g :: rest =>
    if isBuiltIn g || seen.contains g.id then newGates seen rest
    else g :: newGates (seen ++ [g.id]) rest

/-- The gates that the description of a circuit defines. -/
def Circuit.customs (c : Circuit) : List Gate := newGates [] c.columns.flatten

section newGates

variable {seen : List String} {cells : List (Option Gate)} {g : Gate}

theorem mem_of_mem_newGates (h : g ∈ newGates seen cells) :
    some g ∈ cells ∧ isBuiltIn g = false ∧ g.id ∉ seen := by
  induction cells generalizing seen with
  | nil => cases h
  | cons cell rest ih =>
    cases cell with
    | none =>
      obtain ⟨inside, custom, unseen⟩ := ih h
      exact ⟨List.mem_cons_of_mem _ inside, custom, unseen⟩
    | some first =>
      rw [newGates] at h
      split at h
      · obtain ⟨inside, custom, unseen⟩ := ih h
        exact ⟨List.mem_cons_of_mem _ inside, custom, unseen⟩
      · next fresh =>
        rcases List.mem_cons.mp h with rfl | later
        · simpa using fresh
        · obtain ⟨inside, custom, unseen⟩ := ih later
          exact ⟨List.mem_cons_of_mem _ inside, custom,
            fun old => unseen (List.mem_append_left _ old)⟩

/-- Every id of a gate that is not built in is defined. -/
theorem exists_newGates (inside : some g ∈ cells) (custom : isBuiltIn g = false)
    (unseen : g.id ∉ seen) : ∃ first ∈ newGates seen cells, first.id = g.id := by
  induction cells generalizing seen with
  | nil => cases inside
  | cons cell rest ih =>
    cases cell with
    | none => exact ih (by simpa using inside) unseen
    | some first =>
      rw [newGates]
      split
      · next old =>
        refine ih ?_ unseen
        rcases List.mem_cons.mp inside with same | later
        · cases same
          simp [custom, unseen] at old
        · exact later
      · by_cases same : first.id = g.id
        · exact ⟨first, List.mem_cons_self, same⟩
        · have later : some g ∈ rest := by
            rcases List.mem_cons.mp inside with equal | later
            · cases equal
              exact absurd rfl same
            · exact later
          have unseen' : g.id ∉ seen ++ [first.id] := by simp [unseen, Ne.symm same]
          obtain ⟨other, defined, id⟩ := ih later unseen'
          exact ⟨other, List.mem_cons_of_mem _ defined, id⟩

/-- Every id is defined once. -/
theorem nodup_newGates : ((newGates seen cells).map (·.id)).Nodup := by
  induction cells generalizing seen with
  | nil => exact List.nodup_nil
  | cons cell rest ih =>
    cases cell with
    | none => exact ih
    | some first =>
      rw [newGates]
      split
      · exact ih
      · rw [List.map_cons, List.nodup_cons, List.mem_map]
        refine ⟨?_, ih⟩
        rintro ⟨g, later, id⟩
        exact (mem_of_mem_newGates later).2.2 (by simp [id])

end newGates

namespace Circuit

variable {c : Circuit} {g : Gate}

theorem at_iff_mem_flatten : c.At g ↔ some g ∈ c.columns.flatten := by
  rw [List.mem_flatten]
  rfl

theorem of_mem_customs (h : g ∈ c.customs) : c.At g ∧ isBuiltIn g = false := by
  obtain ⟨inside, custom, _⟩ := mem_of_mem_newGates h
  exact ⟨at_iff_mem_flatten.mpr inside, custom⟩

theorem exists_customs (inside : c.At g) (custom : isBuiltIn g = false) :
    ∃ first ∈ c.customs, first.id = g.id :=
  exists_newGates (at_iff_mem_flatten.mp inside) custom List.not_mem_nil

end Circuit

/-! ## Definitions -/

theorem Gate.id_of_encode {g : Gate} {d : Definition} (h : g.encode = .ok d) : d.id = g.id := by
  obtain ⟨id, title, role, height, exports, matrix, entangler, inert, pos⟩ := g
  cases role with
  | nonLocal payload =>
    cases h
    rfl
  | nested body =>
    obtain ⟨description, -, done⟩ := Except.bind_eq_ok.mp h
    cases done
    rfl
  | unitary => cases matrix <;> cases exports <;> cases h <;> rfl
  | _ => cases h

/-- A gate that has a definition: it carries no mark of a built-in gate and is a placeholder, a
nested circuit, or a payload with a matrix or an export. -/
inductive Gate.Definable : Gate → Prop
  | nonLocal {id title : String} {payload : Placeholder} {exports : Option Export}
      {matrix : Option Matrix} {pos : 0 < 2} (standard : some payload.kind.matrix == matrix) :
      Definable ⟨id, title, .nonLocal payload, 2, exports, matrix, none, false, pos⟩
  | nested {id title : String} {body : Circuit} {height : Nat} {exports : Option Export}
      {pos : 0 < height} :
      Definable ⟨id, title, .nested body, height, exports, none, none, false, pos⟩
  | matrix {id title : String} {m : Matrix} {height : Nat} {exports : Option Export}
      {pos : 0 < height} :
      Definable ⟨id, title, .unitary, height, exports, some m, none, false, pos⟩
  | exported {id title : String} {e : Export} {height : Nat} {pos : 0 < height} :
      Definable ⟨id, title, .unitary, height, some e, none, none, false, pos⟩

/-- A definable gate has a definition if its circuit has a description. -/
theorem Gate.Definable.encode {g : Gate} (definable : g.Definable)
    (inside : ∀ body, g.body? = some body → ∃ description, body.encode = .ok description) :
    ∃ d, g.encode = .ok d := by
  cases definable with
  | nested =>
    obtain ⟨description, encoded⟩ := inside _ rfl
    exact ⟨_, Except.bind_eq_ok.mpr ⟨description, encoded, rfl⟩⟩
  | _ => exact ⟨_, rfl⟩

/-! ## Descriptions -/

/-- The definitions of cells are those of their new gates, after the ones that are there. -/
theorem Gate.defineCells_eq (defined : List Definition) (cells : List (Option Gate)) :
    Gate.defineCells defined cells = do
      let definitions ← (newGates (defined.map (·.id)) cells).mapM Gate.encode
      return defined ++ definitions := by
  induction cells generalizing defined with
  | nil => simp [Gate.defineCells, newGates, pure, Except.pure]
  | cons cell rest ih =>
    cases cell with
    | none => exact ih defined
    | some g =>
      rw [Gate.defineCells, newGates]
      have seen : (defined.map (·.id)).contains g.id = defined.any (·.id == g.id) := by
        rw [Bool.eq_iff_iff]
        simp
      rw [seen]
      split
      · exact ih defined
      · rw [List.mapM_cons]
        cases encoded : g.encode with
        | error fault => rfl
        | ok d =>
          have ids : (defined ++ [d]).map (·.id) = defined.map (·.id) ++ [g.id] := by
            rw [List.map_append, List.map_singleton, Gate.id_of_encode encoded]
          simp only [Except.ok_bind, ih, ids, bind_assoc, pure_bind, List.append_assoc,
            List.singleton_append]

theorem Gate.defineColumns_eq (defined : List Definition) (columns : List (Column Gate)) :
    Gate.defineColumns defined columns = Gate.defineCells defined columns.flatten := by
  have append : ∀ (defined : List Definition) (cells others : List (Option Gate)),
      Gate.defineCells defined (cells ++ others) =
        (Gate.defineCells defined cells >>= fun defined => Gate.defineCells defined others) := by
    intro defined cells others
    induction cells generalizing defined with
    | nil => rfl
    | cons cell rest ih =>
      cases cell with
      | none => exact ih defined
      | some g =>
        simp only [List.cons_append, Gate.defineCells, ih]
        split
        · rfl
        · rw [bind_assoc]
  induction columns generalizing defined with
  | nil => rfl
  | cons column rest ih =>
    rw [List.flatten_cons, append, Gate.defineColumns]
    simp only [ih]

/-- **The description of a circuit** defines its new gates. -/
theorem Circuit.encode_eq (c : Circuit) :
    c.encode = do
      let definitions ← c.customs.mapM Gate.encode
      return ⟨c.columns.map cellsOf, definitions, some c.wires⟩ := by
  obtain ⟨wires, columns⟩ := c
  show Grid.encode _ = _
  rw [Grid.encode, Gate.defineColumns_eq, Gate.defineCells_eq, bind_assoc]
  rfl

theorem Circuit.encode_eq_ok {c : Circuit} {d : Description} :
    c.encode = .ok d ↔ ∃ definitions,
      List.Forall₂ (fun g definition => g.encode = .ok definition) c.customs definitions ∧
        d = ⟨c.columns.map cellsOf, definitions, some c.wires⟩ := by
  rw [Circuit.encode_eq, Except.bind_eq_ok]
  refine exists_congr fun definitions => and_congr Except.mapM_eq_ok ?_
  exact ⟨fun done => (Except.ok.inj done).symm, fun same => congrArg Except.ok same.symm⟩

end CircuitGrid
