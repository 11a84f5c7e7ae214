import CircuitGrid.Proofs.Description.Accepted
import CircuitGrid.Proofs.Description.Reading

/-!
# Texts that lead back to their circuit

A circuit that was read from a text can always be written. Its text leads back to it unless a
definition comes to stand before one that used its id for a built-in gate, or the definitions that
are repeated inside nested circuits nest the text too deeply.

* `Circuit.numbers_of_encode`: the doubles of a description are those of its circuit;
* **`Circuit.ofText_toText_iff`**: when a circuit that was read comes back.
-/

namespace CircuitGrid

/-! ## Doubles -/

theorem ReadsBack.beq_self {x : Float} (h : ReadsBack x) : x == x := by
  rw [Float.beq_self_iff]
  rintro rfl
  exact absurd h.isFinite (by decide +kernel)

theorem Gate.numbers_of_encode {g : Gate} {d : Definition} (encoded : g.encode = .ok d) {x : Float}
    (inside : x ∈ d.numbers) : x ∈ g.numbers ∨ ∃ body description, g.body? = some body ∧
      Grid.encode body = .ok description ∧ x ∈ Sheet.numbers description := by
  rw [Definition.numbers_eq, List.mem_append] at inside
  rcases inside with own | nested
  · left
    obtain ⟨id, title, role, height, exports, matrix, entangler, inert, pos⟩ := g
    rw [Gate.numbers, List.mem_append, Or.comm]
    cases role with
    | nonLocal payload =>
      cases encoded
      exact .inr (by simpa using own)
    | nested body =>
      obtain ⟨description, -, done⟩ := Except.bind_eq_ok.mp encoded
      cases done
      exact .inr (by simpa using own)
    | unitary =>
      cases matrix with
      | some m =>
        cases encoded
        refine (List.mem_append.mp own).imp_left fun inMatrix => ?_
        simpa [Matrix.components] using inMatrix
      | none => cases exports <;> cases encoded; exact .inr (by simpa using own)
    | _ => cases encoded
  · right
    cases found : d.circuit with
    | none => simp [found] at nested
    | some description =>
      obtain ⟨body, inGate, described⟩ := (Gate.circuit_of_encode encoded).mp found
      exact ⟨body, description, inGate, described, by simpa [found] using nested⟩

theorem Circuit.numbers_of_encode {c : Circuit} {d : Description} (encoded : c.encode = .ok d)
    {x : Float} (inside : x ∈ Sheet.numbers d) : ∃ g, c.Holds g ∧ x ∈ g.numbers := by
  induction c using Circuit.nesting_induction generalizing d with
  | step c ih =>
    obtain ⟨ds, definitions, rfl⟩ := Circuit.encode_eq_ok.mp encoded
    obtain ⟨definition, defined, here⟩ := Sheet.mem_numbers.mp inside
    obtain ⟨g, custom, encoded⟩ := exists_left_of_mem definitions defined
    have standing := (Circuit.of_mem_customs custom).1
    rcases Gate.numbers_of_encode encoded here with own | nested
    · exact ⟨_, .here standing, own⟩
    · obtain ⟨body, description, nested, described, here⟩ := nested
      obtain ⟨g, held, found⟩ := ih _ standing body nested described here
      exact ⟨g, .inside standing nested held, found⟩

/-! ## Texts -/

theorem Circuit.ofText_eq_ok {source : String} {c : Circuit} : ofText source = .ok c ↔
    ∃ d, Description.read.run source = .ok d ∧ Description.decode d = .ok c := by
  unfold ofText ofTextIn
  cases Description.read.run source with
  | error fault => simp
  | ok d =>
    simp only [Except.ok.injEq, exists_eq_left', Description.decode, Sheet.decode]
    cases decoded : Sheet.decodeIn .unlimited [] d <;> simp

/-- The circuit in a text with the given characters. -/
def Circuit.ofChars (chars : List Char) : Except (Stop TextError) Circuit :=
  match Description.read chars with
  | .error fault => .error (.fault (.json fault))
  | .ok (description, rest) =>
    if (rest.dropWhile Reader.isBlank).isEmpty then
      match Description.decode description with
      | .error stop => .error (stop.map .circuit)
      | .ok circuit => .ok circuit
    else .error (.fault (.json .malformed))

/-- A text that is spelled out is read from its characters. They are found much faster than those of
the text itself, which have to be decoded from its bytes. -/
theorem Circuit.ofText_spelled (source : String) {chars : List Char}
    (spelled : source = String.ofList chars) : ofText source = ofChars chars := by
  rw [ofText, ofTextIn, Reader.run, spelled, String.toList_ofList, ofChars]
  cases Description.read chars with
  | error fault => rfl
  | ok found =>
    dsimp only
    by_cases ended : (found.2.dropWhile Reader.isBlank).isEmpty
    · rw [if_pos ended]
      exact (if_pos ended).symm
    · rw [if_neg ended]
      exact (if_neg ended).symm

theorem spelled_append {s t : String} {chars chars' : List Char} (h : s = String.ofList chars)
    (h' : t = String.ofList chars') : s ++ t = String.ofList (chars ++ chars') := by
  rw [h, h', String.ofList_append]

example : (Circuit.ofText "\x7b\"cols\":[[\"H\"],[1,\"X\"]]\x7d").toOption.map (·.wires) =
    some 2 := by
  rw [Circuit.ofText_spelled _ rfl]
  decide +kernel

/-- The circuit of a text comes from a description. -/
theorem Circuit.accepted_of_ofText {source : String} {c : Circuit} (read : ofText source = .ok c) :
    c.Accepted := by
  obtain ⟨_, -, decoded⟩ := ofText_eq_ok.mp read
  exact Sheet.accepted_of_decode .nil decoded

theorem Circuit.readsBack_of_encode {c : Circuit}
    (numbers : ∀ g, c.Holds g → ∀ x ∈ g.numbers, ReadsBack x) {d : Description}
    (encoded : c.encode = .ok d) : ∀ x ∈ d.numbers, ReadsBack x := by
  intro x inside
  obtain ⟨g, held, found⟩ := Circuit.numbers_of_encode encoded inside
  exact numbers g held x found

/-- What is read of the text of a description. -/
theorem Circuit.ofText_compact {c : Circuit} (numbers : ∀ g, c.Holds g → ∀ x ∈ g.numbers, ReadsBack x)
    {d : Description} (encoded : c.encode = .ok d) {c' : Circuit} :
    ofText d.toJson.compact = .ok c' ↔
      (d.toJson.depth ≤ maxDepth ∧ d.fits) ∧ Description.decode d = .ok c' := by
  obtain ⟨fits, overflows⟩ :=
    Description.run_read d (readsBack_of_encode numbers encoded) d.toJson.writes_compact
  rw [ofText_eq_ok]
  constructor
  · rintro ⟨d', found, decoded⟩
    by_cases fit : d.toJson.depth ≤ maxDepth ∧ d.fits
    · cases found.symm.trans (fits fit)
      exact ⟨fit, decoded⟩
    · obtain ⟨fault, refused⟩ := overflows fit
      cases found.symm.trans refused
  · rintro ⟨fit, decoded⟩
    exact ⟨d, fits fit, decoded⟩

/-- **When a circuit that was read comes back from its text.** It can always be written, and what is
written leads back to it exactly when it is not nested too deeply, its numbers fit into their words,
and no built-in gate is hidden. -/
theorem Circuit.ofText_toText_iff {source : String} {c : Circuit} (read : ofText source = .ok c)
    (numbers : ∀ g, c.Holds g → ∀ x ∈ g.numbers, ReadsBack x) :
    ∃ d, c.encode = .ok d ∧ c.toText = .ok d.toJson.compact ∧
      ((∃ c', ofText d.toJson.compact = .ok c' ∧ c' == c) ↔
        (d.toJson.depth ≤ maxDepth ∧ d.fits) ∧ d.avoids []) := by
  obtain ⟨_, -, decoded⟩ := ofText_eq_ok.mp read
  have accepted : c.Accepted := Sheet.accepted_of_decode .nil decoded
  have numeric : c.Numeric := fun g held x inside => (numbers g held x inside).beq_self
  obtain ⟨d, encoded, iff⟩ := (accepted.describable numeric).decode_encode_iff
  have comesBack : (∃ c', Description.decode d = .ok c' ∧ c' == c) ↔ d.avoids [] :=
    (iff [] .nil).trans (and_iff_right (accepted.sized numeric))
  refine ⟨d, encoded, by rw [toText, encoded]; rfl, ?_⟩
  simp only [ofText_compact numbers encoded, and_assoc, exists_and_left]
  rw [comesBack]

/-- Whether all doubles of a circuit are read back. -/
def Circuit.readsBack (c : Circuit) : Bool :=
  Grid.all (fun g => g.numbers.all fun x => decide (ReadsBack x)) c

theorem Circuit.readsBack_iff {c : Circuit} :
    c.readsBack ↔ ∀ g, c.Holds g → ∀ x ∈ g.numbers, ReadsBack x := by
  simp [readsBack, Grid.all_eq_true]

/-- A circuit in which a nested circuit uses a definition from outside, before it is used there. -/
theorem Circuit.ofText_toText_inherited :
    let source := "\x7b\"cols\":[[\"X\"],[\"n\"],[\"u\"]],\"gates\":[" ++
      "\x7b\"id\":\"u\",\"matrix\":[[0,0],[0,-1],[0,1],[0,0]]\x7d," ++
      "\x7b\"id\":\"n\",\"circuit\":\x7b\"cols\":[[\"u\"],[\"X\"]]\x7d\x7d]\x7d"
    ∃ c, ofText source = .ok c ∧ (∀ g, c.Holds g → ∀ x ∈ g.numbers, ReadsBack x) ∧
      ∃ text, c.toText = .ok text ∧ ∃ c', ofText text = .ok c' ∧ c' == c := by
  intro source
  have checked : (match ofText source with
      | .ok c => c.readsBack && match c.encode with
        | .ok d => decide ((d.toJson.depth ≤ maxDepth ∧ d.fits) ∧ d.avoids [])
        | .error _ => false
      | .error _ => false) = true := by
    rw [Circuit.ofText_spelled source (spelled_append (spelled_append rfl rfl) rfl)]
    decide +kernel
  cases read : ofText source with
  | error fault => rw [read] at checked; cases checked
  | ok c =>
    rw [read] at checked
    obtain ⟨numbers, fits⟩ := Bool.and_eq_true_iff.mp checked
    obtain ⟨d, encoded, written, iff⟩ := ofText_toText_iff read (readsBack_iff.mp numbers)
    rw [encoded] at fits
    exact ⟨c, rfl, readsBack_iff.mp numbers, _, written, iff.mpr (of_decide_eq_true fits)⟩

/-- **A circuit that does not come back**: it uses its own gate under a built-in id before a nested
circuit in which that id stands for the built-in gate. -/
theorem Circuit.not_ofText_toText_of_hidden :
    ¬ ∀ (source : String) (c : Circuit), ofText source = .ok c →
      (∀ g, c.Holds g → ∀ x ∈ g.numbers, ReadsBack x) →
        ∃ text, c.toText = .ok text ∧ ∃ c', ofText text = .ok c' ∧ c' == c := by
  intro all
  let source := "\x7b\"cols\":[[\"X\"],[\"N\"]],\"gates\":[" ++
    "\x7b\"id\":\"N\",\"circuit\":\x7b\"cols\":[[\"X\"]]\x7d\x7d," ++
    "\x7b\"id\":\"X\",\"matrix\":[[0,0],[1,0],[1,0],[0,0]]\x7d]\x7d"
  have checked : (match ofText source with
      | .ok c => c.readsBack && match c.encode with
        | .ok d => match Description.decode d with
          | .ok c' => !(c' == c)
          | .error _ => true
        | .error _ => true
      | .error _ => false) = true := by
    rw [Circuit.ofText_spelled source (spelled_append (spelled_append rfl rfl) rfl)]
    decide +kernel
  cases read : ofText source with
  | error fault => rw [read] at checked; cases checked
  | ok c =>
    rw [read] at checked
    obtain ⟨readsBack, differs⟩ := Bool.and_eq_true_iff.mp checked
    have numbers := readsBack_iff.mp readsBack
    obtain ⟨text, written, c', read', same⟩ := all source c read numbers
    cases encoded : c.encode with
    | error fault =>
      rw [toText, encoded] at written
      cases written
    | ok d =>
      rw [toText, encoded] at written
      cases written
      have decoded := ((ofText_compact numbers encoded).mp read').2
      simp [encoded, decoded, same] at differs

end CircuitGrid
