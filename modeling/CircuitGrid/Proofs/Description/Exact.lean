import CircuitGrid.Proofs.Description.Distributed

/-!
# Circuits that are restored exactly

A description leads back to the very circuit it was written for, and not only to an equal one, when an
id stands for one gate and every gate is built in as it stands or is restored by its definition.

* `Gate.Restored`: the definition of a gate leads back to it;
* **`Circuit.decode_encode_eq`**: when the description of a circuit leads back to it;
* **`Circuit.Plain.decode_linked`**: circuits of built-in gates are restored after linking;
* **`Circuit.Plain.readBack_linked`**: their indented texts are read back.
-/

namespace CircuitGrid

/-! ## Gates that are restored -/

/-- The definition of a gate leads back to it in every scope. -/
def Gate.Restored (g : Gate) : Prop :=
  ∃ d, g.encode = .ok d ∧ ∀ scope : Scope, d.decode scope = .ok g

theorem Site.restored_placeholder (s : Site) (link : Link) : (s.placeholder link).Restored :=
  ⟨_, rfl, fun _ => rfl⟩

theorem Gate.Restored.matrix {id title : String} {m : Matrix} {height : Nat}
    {exports : Option Export} {pos : 0 < height}
    (tall : (Matrix.wires? m.length).map (max · 1) = some height) :
    Gate.Restored ⟨id, title, .unitary, height, exports, some m, none, false, pos⟩ := by
  refine ⟨_, rfl, fun scope => ?_⟩
  obtain ⟨wires, found, rfl⟩ := Option.map_eq_some_iff.mp tall
  rw [Definition.decode_matrix, found]
  simp only [Option.or_none]
  rfl

/-- A gate of the catalogue is built in, or it holds something that is no number. Then it is restored
by a definition. -/
theorem Catalog.isBuiltIn_or_restored {g : Gate} (known : Catalog.find? g.id = some g) :
    isBuiltIn g ∨ g.Restored := by
  have inside : g ∈ Catalog.gates := List.mem_of_find?_eq_some known
  have exact : (Catalog.markers ++ [Catalog.twoWire "CNOT" "Controlled-NOT" .cx,
      Catalog.twoWire "CZ" "Controlled-Z" .cz]).all isBuiltIn := by decide +kernel
  have restored : ∀ g ∈ Catalog.oneWire, g.Restored := by
    simp only [Catalog.oneWire, List.forall_mem_cons]
    refine ⟨?_, ?_, ?_, ?_, ?_, ?_, ?_, ?_, ?_, ?_, ?_, ?_, ?_, ?_, ?_, ?_,
      fun _ inside => absurd inside List.not_mem_nil⟩ <;> exact .matrix rfl
  rw [Catalog.gates, List.mem_append, List.mem_append] at inside
  rcases inside with (marker | oneWire) | twoWire
  · exact .inl (List.all_eq_true.mp exact g (List.mem_append_left _ marker))
  · exact .inr (restored g oneWire)
  · exact .inl (List.all_eq_true.mp exact g (List.mem_append_right _ twoWire))

/-! ## Circuits that are restored -/

namespace Circuit

variable {c : Circuit} {p : Partition}

/-- Definitions of restored gates lead back to them. -/
theorem decoded_of_restored {gs : List Gate} {ds : List Definition}
    (encoded : List.Forall₂ (fun g d => g.encode = .ok d) gs ds) (restored : ∀ g ∈ gs, g.Restored)
    (scope : Scope) : Definition.Decoded scope ds gs := by
  induction encoded generalizing scope with
  | nil => exact .nil
  | cons first _ ih =>
    obtain ⟨d, encoded, decoded⟩ := restored _ List.mem_cons_self
    cases first.symm.trans encoded
    exact .cons (decoded scope) (ih (fun g inside => restored g (List.mem_cons_of_mem _ inside)) _)

/-- **A circuit is restored by its description** when an id stands for one gate in it and every gate is
the built-in one or restored by its definition. -/
theorem decode_encode_eq (valid : c.validate = .ok ())
    (ids : ∀ g h, c.At g → c.At h → g.id = h.id → g = h)
    (builtIn : ∀ g, c.At g → isBuiltIn g → Catalog.find? g.id = some g)
    (custom : ∀ g, c.At g → isBuiltIn g = false → g.Restored) :
    ∃ d, c.encode = .ok d ∧ d.decode = .ok c := by
  have restored : ∀ g ∈ c.customs, g.Restored := fun g defined =>
    (of_mem_customs defined).elim (custom g)
  obtain ⟨ds, encoded⟩ := exists_forall₂ fun g defined => (restored g defined).imp fun _ h => h.1
  have lengths : ∀ column ∈ c.columns, column.length = c.wires := fun column inside =>
    ((validate_eq_ok.mp valid).1 column inside).length_eq
  refine ⟨_, Circuit.encode_eq_ok.mpr ⟨ds, encoded, rfl⟩, (Sheet.decode_eq_ok lengths).mpr
    ⟨c.customs, decoded_of_restored encoded restored [], rfl, ?_, valid⟩⟩
  rw [List.forall₂_same]
  intro column inColumns
  rw [Column.Resolved, List.forall₂_same]
  rintro (_ | g) inColumn
  · exact .none
  refine .some ?_
  have here : c.At g := ⟨column, inColumns, inColumn⟩
  cases own : isBuiltIn g with
  | true =>
    have undefined : g.id ∉ ds.map (·.id) := by
      rw [ids_of_encoded encoded, List.mem_map]
      rintro ⟨first, defined, same⟩
      obtain ⟨inside, own'⟩ := of_mem_customs defined
      rw [ids first g inside here same, own] at own'
      cases own'
    rw [Scope.resolve, Scope.lookup_extend_of_not_mem undefined, List.lookup_nil,
      builtIn g here own]
  | false =>
    obtain ⟨first, defined, same⟩ := exists_customs here own
    cases ids first g (of_mem_customs defined).1 here same
    obtain ⟨i, bound, found⟩ := List.mem_iff_getElem.mp defined
    have resolves := @resolve_customs c ds encoded [] c.customs i bound bound
    rwa [found] at resolves

/-! ## Circuits of built-in gates -/

/-- Every gate of the circuit is the built-in one of its id. -/
def Plain (c : Circuit) : Prop := ∀ g, c.At g → Catalog.find? g.id = some g

theorem plain_of_decode {d : Description} (none : d.gates = []) (decoded : d.decode = .ok c) :
    c.Plain ∧ c.validate = .ok () := by
  obtain ⟨columns, ds, wires⟩ := d
  cases none
  obtain ⟨scope, defined, rest⟩ := Except.bind_eq_ok.mp decoded
  cases defined
  obtain ⟨columns', resolved, laidOut⟩ := Except.bind_eq_ok.mp rest
  obtain ⟨valid, wires, columns_eq⟩ := layOut_valid laidOut
  refine ⟨?_, valid⟩
  rintro g ⟨column, inColumns, inColumn⟩
  rw [columns_eq] at inColumns
  obtain ⟨column', inColumns', rfl⟩ := List.mem_map.mp inColumns
  obtain ⟨id, found⟩ := exists_resolve resolved inColumns' (Column.mem_of_mem_padTo inColumn)
  obtain ⟨rfl, -⟩ := Scope.Accepted.nil.resolve found
  rw [Scope.resolve, List.lookup_nil] at found
  cases known : Catalog.find? g.id with
  | none => simp [known] at found
  | some g' => simpa [known] using found

/-- **A linked circuit of built-in gates is restored by its description.** -/
theorem Plain.decode_linked (plain : c.Plain) (valid : c.validate = .ok ()) :
    ∃ d, (c.linked p).encode = .ok d ∧ d.decode = .ok (c.linked p) := by
  have apart := (validate_eq_ok.mp valid).1
  refine decode_encode_eq (validate_linked valid) (fun g h here here' same => ?_)
    (fun g here own => ?_) fun g here own => ?_
  · obtain ⟨s, isSite, link, isLink, rfl⟩ | before := at_linked (.of_apart apart) here <;>
      obtain ⟨t, isSite', link', isLink', rfl⟩ | before' := at_linked (.of_apart apart) here'
    · cases placeholder_unique apart isSite isSite' same
      cases isLink.symm.trans isLink'
      rfl
    · have known := plain h before'
      rw [← same, Site.find?_id_placeholder] at known
      cases known
    · have known := plain g before
      rw [same, Site.find?_id_placeholder] at known
      cases known
    · have known := plain g before
      rw [same, plain h before'] at known
      exact (Option.some.inj known).symm
  · obtain ⟨s, -, link, -, rfl⟩ | before := at_linked (.of_apart apart) here
    · rw [isBuiltIn_placeholder] at own
      cases own
    · exact plain g before
  · obtain ⟨s, -, link, -, rfl⟩ | before := at_linked (.of_apart apart) here
    · exact s.restored_placeholder link
    · refine (Catalog.isBuiltIn_or_restored (plain g before)).resolve_left ?_
      rw [own]
      exact Bool.false_ne_true

/-! ## Indented texts -/

/-- The indented text of a circuit is read as the description that was written. -/
def ReadBack (c : Circuit) : Prop :=
  ∀ s, c.encode = .ok s → Description.read.run s.toJson.pretty = .ok s

/-- An indented text is read back if it is not nested too deeply and its numbers fit. -/
theorem readBack_of_fits (numbers : ∀ g, c.Holds g → ∀ x ∈ g.numbers, ReadsBack x)
    (fits : ∀ s, c.encode = .ok s → s.toJson.depth ≤ maxDepth ∧ s.fits) : c.ReadBack := by
  intro s encoded
  have readable := readsBack_of_encode numbers encoded
  exact (Description.run_read s readable (s.toJson.writes_prettyAt 0)).1 (fits s encoded)

/-- **The indented text of a linked circuit of built-in gates is read back** as long as its wires fit
into their words. -/
theorem Plain.readBack_linked (plain : c.Plain) (valid : c.validate = .ok ())
    (numbers : ∀ g, c.Holds g → ∀ x ∈ g.numbers, ReadsBack x) (wires : c.wires < 2 ^ 64)
    (narrow : ∀ link ∈ c.linksFor p, link.second < wireLimit) : (c.linked p).ReadBack := by
  have apart := (validate_eq_ok.mp valid).1
  have numeric : c.Numeric := fun g held x inside => (numbers g held x inside).beq_self
  refine readBack_of_fits (readsBack_linked apart numbers) fun s encoded => ?_
  obtain ⟨ds, definitions, rfl⟩ := Circuit.encode_eq_ok.mp encoded
  -- a gate of the catalogue that equals itself needs no definition
  have placeholders : ∀ e ∈ ds, ∃ s ∈ c.sites p, ∃ link, s.link? (c.linksFor p) = some link ∧
      (s.placeholder link).encode = .ok e := by
    intro e inside
    obtain ⟨g, custom, written⟩ := exists_left_of_mem definitions inside
    obtain ⟨here, own⟩ := of_mem_customs custom
    obtain ⟨s, isSite, link, isLink, rfl⟩ | before := at_linked (.of_apart apart) here
    · exact ⟨s, isSite, link, isLink, written⟩
    · rw [isBuiltIn_iff.mpr ⟨g, plain g before, numeric.same g before⟩] at own
      cases own
  refine ⟨Sheet.depth_le_iff.mpr fun e inside => ?_,
    Sheet.fits_iff.mpr ⟨fun e inside => ?_, wires_linked_lt wires narrow⟩⟩ <;>
    obtain ⟨s, isSite, link, isLink, written⟩ := placeholders e inside
  · have flat : e.circuit = none := by
      cases written
      rfl
    exact (Definition.depth_of_flat flat).trans (by decide)
  · exact fits_of_site apart isSite isLink (narrow link (List.mem_of_find?_eq_some isLink)) written

end Circuit

end CircuitGrid
