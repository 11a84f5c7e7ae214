import CircuitGrid.Proofs.Description.RoundTrip

/-!
# Circuits that a description represents

A well-formed circuit whose own gates have definitions and ids that are not built in comes back from
its description in every scope that leaves the built-in ids alone, if its matrices are on fewer than
64 wires. The checker counts the side of a matrix in a word of 64 bits and so accepts a small matrix
on 64 wires or more, but the height that is read off its entries is another one.

* `Circuit.Representable`: the circuits that descriptions are meant for;
* `Matrix.wires?_eq_some`, `sized_iff_height_lt`: the height that follows from a matrix;
* **`Circuit.Representable.decode_encode_iff_height_lt`**: when such a circuit comes back.
-/

namespace CircuitGrid

/-- A circuit that descriptions are meant for: it is well formed, its numbers are finite, equal ids
are those of equal gates, at each level by itself, and every gate is built in or has a definition
and an id of its own. -/
inductive Circuit.Representable : Circuit → Prop
  | intro {c : Circuit} (valid : c.validate = .ok ())
      (finite : ∀ g, c.At g → ∀ x ∈ g.numbers, x.isFinite)
      (ids : ∀ g h, c.At g → c.At h → g.id = h.id → g == h)
      (gates : ∀ g, c.At g → isBuiltIn g ∨ Catalog.find? g.id = none ∧ g.Definable)
      (bodies : ∀ g body, c.At g → g.body? = some body → Representable body) : Representable c

namespace Circuit.Representable

variable {c : Circuit}

theorem definable (h : c.Representable) {g : Gate} (inside : c.At g) (own : isBuiltIn g = false) :
    Catalog.find? g.id = none ∧ g.Definable := by
  obtain ⟨-, -, -, gates, -⟩ := h
  refine (gates g inside).resolve_left fun builtIn => ?_
  rw [builtIn] at own
  cases own

theorem describable (h : c.Representable) : c.Describable := by
  induction h with
  | @intro c valid finite ids gates bodies ih =>
    refine .intro valid ids (fun g inside own => ?_) ih
    exact ((intro valid finite ids gates bodies).definable inside own).2

/-- A representable circuit does not hide built-in gates, wherever its description stands. -/
theorem avoids (h : c.Representable) {d : Description} (encoded : c.encode = .ok d)
    {taken : List String} (foreign : ∀ id ∈ taken, Catalog.find? id = none) : d.avoids taken := by
  induction h generalizing d taken with
  | @intro c valid finite ids gates bodies ih =>
    obtain ⟨ds, definitions, rfl⟩ := Circuit.encode_eq_ok.mp encoded
    rw [Circuit.avoids_iff ids definitions]
    refine ⟨?_, fun g inside builtIn hidden => ?_⟩
    · have own : ∀ g ∈ c.customs, c.At g ∧ Catalog.find? g.id = none := by
        intro g defined
        obtain ⟨inside, custom⟩ := Circuit.of_mem_customs defined
        exact ⟨inside, ((intro valid finite ids gates bodies).definable inside custom).1⟩
      clear encoded
      generalize c.customs = gs at definitions own
      induction definitions generalizing taken with
      | nil => rfl
      | @cons g d gs ds first _ others =>
        obtain ⟨inside, free⟩ := own g List.mem_cons_self
        rw [Definition.allAvoid, Bool.and_eq_true, Definition.avoids_iff]
        constructor
        · intro description found
          obtain ⟨body, nested, described⟩ := (Gate.circuit_of_encode first).mp found
          exact ih g body inside nested described foreign
        · refine others ?_ fun h inside => own h (List.mem_cons_of_mem _ inside)
          rw [Gate.id_of_encode first]
          exact List.forall_mem_cons.mpr ⟨free, foreign⟩
    · obtain ⟨entry, found, -⟩ := isBuiltIn_iff.mp builtIn
      rw [foreign g.id hidden] at found
      cases found

end Circuit.Representable

/-! ## Heights and matrices -/

namespace Matrix

theorem powerOfFour?_eq_some {n fuel k : Nat} :
    powerOfFour? n fuel = some k ↔ k < fuel ∧ 4 ^ k = n := by
  induction fuel with
  | zero => simp [powerOfFour?]
  | succ fuel ih =>
    rw [powerOfFour?]
    split
    · next found =>
      have found : 4 ^ fuel = n := found
      rw [Option.some.injEq]
      constructor
      · rintro rfl
        exact ⟨Nat.lt_succ_self _, found⟩
      · rintro ⟨-, power⟩
        exact Nat.pow_right_injective (by decide) (found.trans power.symm)
    · next other =>
      have other : ¬ 4 ^ fuel = n := other
      rw [ih]
      refine ⟨fun ⟨low, power⟩ => ⟨by omega, power⟩, fun ⟨low, power⟩ => ⟨?_, power⟩⟩
      have : k ≠ fuel := by
        rintro rfl
        exact other power
      omega

/-- The number of wires of a matrix with `4 ^ k` entries is `k`. -/
theorem wires?_eq_some {n k : Nat} : wires? n = some k ↔ 4 ^ k = n := by
  rw [wires?, powerOfFour?_eq_some]
  refine ⟨fun found => found.2, fun power => ⟨?_, power⟩⟩
  have two : n = 2 ^ (2 * k) := by rw [← power, Nat.pow_mul]
  rw [two, Nat.log2_two_pow]
  omega

end Matrix

theorem length_of_checkMatrix {id : String} {height : Nat} {m : Matrix}
    (valid : checkMatrix id height (some m) = .ok ()) : m.length = 4 ^ (height % 64) := by
  have square : matrixSide height * matrixSide height = 4 ^ (height % 64) := by
    show 2 ^ (height % 64) * 2 ^ (height % 64) = _
    rw [← Nat.mul_pow]
  rw [checkMatrix] at valid
  split at valid
  · cases valid
  split at valid
  · cases valid
  next unitary tested =>
    cases unitary
    · cases valid
    rw [Matrix.length_of_isUnitary (Matrix.unitary?_eq_some_true.mp tested).1, square]

/-- **The height of a gate that passes the check is that of its matrix** when the matrix is on fewer
than 64 wires. -/
theorem sized_iff_height_lt {g : Gate} (valid : checkGate g = .ok ()) {m : Matrix}
    (matrix : g.matrix = some m) :
    (Matrix.wires? m.length).map (max · 1) = some g.height ↔ g.height < 64 := by
  have checked := (checkGate_eq_ok.mp valid).1
  rw [matrix] at checked
  rw [Matrix.wires?_eq_some.mpr (length_of_checkMatrix checked).symm, Option.map_some,
    Option.some.injEq]
  have pos := g.height_pos
  omega

theorem checkGate_of_holds {c : Circuit} (valid : checkCircuit c = .ok ()) {g : Gate}
    (held : c.Holds g) : checkGate g = .ok () := by
  induction held with
  | here inside => exact (checkCircuit_eq_ok.mp valid).2 _ inside
  | inside inside body _ ih =>
    have sound := (checkCircuit_eq_ok.mp valid).2 _ inside
    exact ih ((checkGate_eq_ok.mp sound).2 _ body).2

theorem Circuit.Representable.holds {c : Circuit} (h : c.Representable) {g : Gate}
    (held : c.Holds g) (own : isBuiltIn g = false) : g.Definable := by
  induction held with
  | here inside => exact (h.definable inside own).2
  | inside inside body _ ih =>
    obtain ⟨-, -, -, -, bodies⟩ := h
    exact ih (bodies _ _ inside body) own

/-- The payloads of a representable circuit have the heights of their matrices when no matrix is on
64 wires or more. -/
theorem Circuit.Representable.sized_iff {c : Circuit} (h : c.Representable) :
    c.Sized ↔ ∀ g, c.Holds g → g.matrix.isSome → g.height < 64 := by
  obtain ⟨valid, -, -, -, -⟩ := id h
  constructor
  · intro sized g held some
    obtain ⟨m, matrix⟩ := Option.isSome_iff_exists.mp some
    cases builtIn : isBuiltIn g with
    | true =>
      obtain ⟨entry, same, low⟩ := Gate.entry_passes builtIn (fun entry => entry.height < 64) rfl
      rw [← same.height]
      exact of_decide_eq_true low
    | false =>
      have tall := sized g held builtIn
      cases h.holds held builtIn with
      | nonLocal =>
        show 2 < 64
        omega
      | nested => cases matrix
      | matrix =>
        exact (sized_iff_height_lt (checkGate_of_holds valid held) matrix).mp (tall rfl m matrix)
      | exported => cases matrix
  · intro low g held _ _ m matrix
    refine (sized_iff_height_lt (checkGate_of_holds valid held) matrix).mpr (low g held ?_)
    rw [matrix]
    rfl

/-- **When a representable circuit comes back from its description.** It always has one, and in
every scope that defines no built-in id the circuit of the description is the circuit itself,
provided that no matrix is on 64 wires or more. -/
theorem Circuit.Representable.decode_encode_iff_height_lt {c : Circuit} (h : c.Representable)
    {outer : Scope} (foreign : ∀ id ∈ outer.ids, Catalog.find? id = none) :
    ∃ d, c.encode = .ok d ∧ ((∃ c', Sheet.decode outer d = .ok c' ∧ c' == c) ↔
      ∀ g, c.Holds g → g.matrix.isSome → g.height < 64) := by
  obtain ⟨d, encoded, iff⟩ := h.describable.decode_encode_iff
  refine ⟨d, encoded, ?_⟩
  have custom : outer.Custom := by
    intro id g inside entry found
    rw [foreign id (List.mem_map_of_mem inside)] at found
    cases found
  rw [iff outer custom, and_iff_left (h.avoids encoded foreign), h.sized_iff]

/-- A nested circuit and its surroundings that use one id for two gates, in a scope that defines it
once more. -/
theorem Circuit.Representable.decode_encode_one_id :
    let u : Gate := ⟨"u", "flip", .unitary, 1, none, some .pauliX, none, false, by decide⟩
    let n : Gate := ⟨"n", "nest", .nested ⟨1, [[some u]]⟩, 2, none, none, none, false, by decide⟩
    let v : Gate := ⟨"u", "link", .nonLocal ⟨.cz, 2, 0, (0, 1)⟩, 2, none, some .cz, none, false,
      by decide⟩
    let x : Gate := Catalog.unitary "X" "Pauli X Gate" .x .cx .pauliX
    let c : Circuit := ⟨3, [[some n, none, some x], [some v, none, none]]⟩
    let outer : Scope := [("u", n), ("n", v)]
    c.Representable ∧ (∀ id ∈ outer.ids, Catalog.find? id = none) ∧
      ∃ d, c.encode = .ok d ∧ ∃ c', Sheet.decode outer d = .ok c' ∧ c' == c := by
  intro u n v x c outer
  have body : Circuit.Representable ⟨1, [[some u]]⟩ := by
    have only : ∀ g, Circuit.At ⟨1, [[some u]]⟩ g → g = u := by
      intro g inside
      simpa [Circuit.at_iff_mem_flatten] using inside
    refine .intro (by decide +kernel) ?_ ?_ ?_ ?_
    · intro g inside
      rw [only g inside]
      decide +kernel
    · intro g h inside inside' _
      rw [only g inside, only h inside']
      decide +kernel
    · intro g inside
      rw [only g inside]
      exact .inr ⟨rfl, .matrix⟩
    · intro g body inside nested
      rw [only g inside] at nested
      cases nested
  have three : ∀ g, c.At g → g = n ∨ g = x ∨ g = v := by
    intro g inside
    rw [Circuit.at_iff_mem_flatten] at inside
    simpa [c] using inside
  have representable : c.Representable := by
    refine .intro (by decide +kernel) ?_ ?_ ?_ ?_
    · intro g inside
      rcases three g inside with rfl | rfl | rfl <;> decide +kernel
    · intro g h inside inside' id
      rcases three g inside with rfl | rfl | rfl <;> rcases three h inside' with rfl | rfl | rfl <;>
        first | decide +kernel | exact absurd id (by decide)
    · intro g inside
      rcases three g inside with rfl | rfl | rfl
      · exact .inr ⟨rfl, .nested⟩
      · exact .inl (by decide +kernel)
      · exact .inr ⟨rfl, .nonLocal (by decide +kernel)⟩
    · intro g inner inside nested
      rcases three g inside with rfl | rfl | rfl <;> cases nested
      exact body
  have foreign : ∀ id ∈ outer.ids, Catalog.find? id = none := by
    simp only [outer, Scope.ids, List.map_cons, List.map_nil, List.forall_mem_cons]
    exact ⟨rfl, rfl, List.forall_mem_nil _⟩
  obtain ⟨d, encoded, iff⟩ := representable.decode_encode_iff_height_lt foreign
  refine ⟨representable, foreign, d, encoded, iff.mpr fun g held _ => ?_⟩
  have low : Grid.all (fun g => g.height < 64) c := rfl
  exact of_decide_eq_true (Grid.all_eq_true.mp low g held)

/-- **A circuit that does not come back**: it is representable, but its matrix is on 65 wires. -/
theorem Circuit.Representable.not_decode_encode_of_word :
    ¬ ∀ c : Circuit, c.Representable → ∀ outer : Scope, (∀ id ∈ outer.ids, Catalog.find? id = none) →
      ∃ d, c.encode = .ok d ∧ ∃ c', Sheet.decode outer d = .ok c' ∧ c' == c := by
  intro all
  let m : Gate := ⟨"m", "m", .unitary, 65, none, some (.identity 2), none, false, by decide⟩
  let c : Circuit := ⟨65, [some m :: List.replicate 64 none]⟩
  have only : ∀ g, c.At g → g = m := by
    intro g inside
    rw [Circuit.at_iff_mem_flatten] at inside
    simpa [c] using inside
  have representable : c.Representable := by
    refine .intro (by decide +kernel) ?_ ?_ ?_ ?_
    · intro g inside
      rw [only g inside]
      decide +kernel
    · intro g h inside inside' _
      rw [only g inside, only h inside']
      decide +kernel
    · intro g inside
      rw [only g inside]
      exact .inr ⟨rfl, .matrix⟩
    · intro g body inside nested
      rw [only g inside] at nested
      cases nested
  obtain ⟨d, encoded, decoded⟩ := all c representable [] nofun
  obtain ⟨d', encoded', iff⟩ := representable.describable.decode_encode_iff
  cases encoded.symm.trans encoded'
  have sized := ((iff [] .nil).mp decoded).1
  have inside : c.At m := Circuit.at_iff_mem_flatten.mpr List.mem_cons_self
  have low := representable.sized_iff.mp sized m (.here inside) rfl
  exact absurd low (by decide)

end CircuitGrid
