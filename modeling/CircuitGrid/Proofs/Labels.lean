import CircuitGrid.Proofs.Writing

/-!
# Labels in written programs

A text dialect writes the label of an instruction on a comment line of its own, before the lines of
the instruction. A label with line breaks goes on over several lines, and only the first of them is
marked as a comment. The others are code unless they happen to be comments by themselves.

* `Dialect.commentMark?`, `codeLines`: what begins a comment line, and the other lines of a text;
* `Instruction.leaked`, `Instruction.Quiet`: the lines of a label that are code, and labels without
  any;
* `Adds`: results that are the same but for further lines of code;
* `Program.adds_emit`: the label of every instruction adds the lines that it leaks;
* **`Program.codeLines_emit`**: programs that differ in their labels are written with the same code
  exactly when no label leaks.
-/

namespace CircuitGrid

/-! ## Lines of code -/

/-- The beginning of the comment lines of a text dialect. -/
def Dialect.commentMark? : Dialect → Option String
  | qasm2 | qasm3 | quest | qsharp => some "//"
  | qiskit | quil | pyquil | cirq | tfq | braket => some "#"
  | qobj => none

/-- Whether the first characters of a line that are not blank are those of a mark. -/
def isComment (mark : String) (line : List Char) : Bool :=
  mark.toList.isPrefixOf (line.dropWhile Char.isWhitespace)

/-- The lines of a text that are no comments. -/
def codeLines (mark text : String) : List (List Char) :=
  (text.toList.splitOn '\n').filter fun line => !isComment mark line

/-- The lines of code of several texts. -/
def codeOf (mark : String) (texts : List String) : List (List Char) :=
  texts.flatMap (codeLines mark)

variable {mark start : String} {i : Instruction} {p p' : Program}

theorem codeLines_append (mark first second : String) :
    codeLines mark (first ++ "\n" ++ second) = codeLines mark first ++ codeLines mark second := by
  have break' : (first ++ "\n" ++ second).toList = first.toList ++ '\n' :: second.toList := by
    simp
  rw [codeLines, break', List.splitOn_append_cons_self, List.filter_append]
  rfl

theorem codeOf_append (mark : String) (texts texts' : List String) :
    codeOf mark (texts ++ texts') = codeOf mark texts ++ codeOf mark texts' := List.flatMap_append

/-- Lines that are all ended are followed by an empty one. -/
theorem codeLines_unlines (mark : String) (texts : List String) :
    codeLines mark (unlines texts) = codeOf mark texts ++ codeLines mark "" := by
  induction texts with
  | nil => rfl
  | cons text rest ih =>
    have first : unlines (text :: rest) = text ++ "\n" ++ unlines rest := by
      simp [unlines, String.join_cons]
    rw [first, codeLines_append, ih, codeOf, codeOf, List.flatMap_cons, List.append_assoc]

/-! ## Labels -/

/-- The instruction without its label. -/
def Instruction.unlabelled (i : Instruction) : Instruction := { i with label := none }

/-- The program without its labels. -/
def Program.unlabelled (p : Program) : Program :=
  { p with instructions := p.instructions.map Instruction.unlabelled }

/-- The lines of a text behind the first one. -/
def furtherLines (text : String) : List (List Char) := (text.toList.splitOn '\n').tail

/-- The lines of the label behind its first one that are no comments. -/
def Instruction.leaked (mark : String) (i : Instruction) : List (List Char) :=
  (i.label.toList.flatMap furtherLines).filter fun line => !isComment mark line

/-- Every line of the label behind its first one is a comment by itself. -/
def Instruction.Quiet (mark : String) (i : Instruction) : Prop :=
  ∀ label, i.label = some label → ∀ line ∈ furtherLines label, isComment mark line

theorem Instruction.leaked_eq_nil : i.leaked mark = [] ↔ i.Quiet mark := by
  have each : i.leaked mark = [] ↔
      ∀ line label, i.label = some label → line ∈ furtherLines label → isComment mark line := by
    simp [leaked, List.filter_eq_nil_iff]
  rw [each]
  exact ⟨fun h label has line => h line label has, fun h line label has => h label has line⟩

/-- What stands before a label is on one line with it and makes that line a comment. -/
structure Opens (mark start : String) : Prop where
  oneLine : '\n' ∉ start.toList
  isComment : ∀ rest, isComment mark (start.toList ++ rest)

theorem splitOn_append {α : Type} [BEq α] [LawfulBEq α] {a : α} {before : List α}
    (free : a ∉ before) (after : List α) :
    (before ++ after).splitOn a = (after.splitOn a).modifyHead (before ++ ·) := by
  induction before with
  | nil => cases h : after.splitOn a <;> simp [h]
  | cons b rest ih =>
    obtain ⟨differ, free⟩ := List.ne_and_not_mem_of_not_mem_cons free
    rw [List.cons_append, List.splitOn_cons_eq_if_modifyHead, ih free,
      if_neg (by simpa using differ.symm), List.modifyHead_modifyHead]
    rfl

/-- The comment lines of an instruction have just the leaked lines as code. -/
theorem codeOf_commentLines (opens : Opens mark start) (i : Instruction) :
    codeOf mark (i.commentLines start) = i.leaked mark := by
  cases label : i.label with
  | none => simp [Instruction.commentLines, Instruction.leaked, codeOf, label]
  | some text =>
    obtain ⟨first, rest, lines⟩ :=
      List.exists_cons_of_ne_nil (List.splitOn_ne_nil '\n' text.toList)
    have whole : (start.toList ++ text.toList).splitOn '\n' = (start.toList ++ first) :: rest := by
      rw [splitOn_append opens.oneLine, lines, List.modifyHead_cons]
    simp [Instruction.commentLines, Instruction.leaked, codeOf, label, codeLines, whole,
      furtherLines, lines, opens.isComment first]

/-! ## Results with further lines of code -/

/-- The first result is the second with so many further lines of code, or both are one error. -/
def Adds {α : Type} (code : α → List (List Char)) (extra : Nat) :
    Except (Stop EmitError) α → Except (Stop EmitError) α → Prop
  | .ok a, .ok b => (code b).Sublist (code a) ∧ (code a).length = (code b).length + extra
  | .error e, .error e' => e = e'
  | _, _ => False

namespace Adds

variable {α β : Type} {code : α → List (List Char)} {code' : β → List (List Char)} {m n : Nat}

theorem refl (x : Except (Stop EmitError) α) : Adds code 0 x x := by
  cases x with
  | ok a => exact ⟨List.Sublist.refl _, rfl⟩
  | error e => rfl

theorem map {x y : Except (Stop EmitError) α} {f : α → β} (before after : List (List Char))
    (wrapped : ∀ a, code' (f a) = before ++ code a ++ after) (h : Adds code n x y) :
    Adds code' n (do return f (← x)) (do return f (← y)) := by
  match x, y, h with
  | .ok a, .ok b, ⟨sublist, length_eq⟩ =>
    refine ⟨?_, ?_⟩
    · rw [wrapped, wrapped]
      exact ((List.Sublist.refl before).append sublist).append (List.Sublist.refl after)
    · simp only [wrapped, List.length_append, length_eq]
      omega
  | .error e, .error _, same => exact same

theorem append {x x' y y' : Except (Stop EmitError) (List String)} (h : Adds (codeOf mark) m x y)
    (h' : Adds (codeOf mark) n x' y') :
    Adds (codeOf mark) (m + n) (do return (← x) ++ (← x')) (do return (← y) ++ (← y')) := by
  match x, y, h with
  | .error e, .error _, same => exact same
  | .ok a, .ok b, ⟨sublist, length_eq⟩ =>
    match x', y', h' with
    | .error e, .error _, same => exact same
    | .ok a', .ok b', ⟨sublist', length_eq'⟩ =>
      refine ⟨?_, ?_⟩
      · rw [codeOf_append, codeOf_append]
        exact sublist.append sublist'
      · simp only [codeOf_append, List.length_append, length_eq, length_eq']
        omega

theorem commentLines (opens : Opens mark start) (i : Instruction)
    (x : Except (Stop EmitError) (List String)) :
    Adds (codeOf mark) (i.leaked mark).length (x.map (i.commentLines start ++ ·)) x := by
  cases x with
  | error e => rfl
  | ok lines =>
    refine ⟨?_, ?_⟩
    · rw [codeOf_append]
      exact List.sublist_append_right _ _
    · rw [codeOf_append, codeOf_commentLines opens, List.length_append, Nat.add_comm]

theorem between {x y : Except (Stop EmitError) (List String)} (h : Adds (codeOf mark) n x y)
    (header footer : List String) :
    Adds (codeLines mark) n (do return unlines (header ++ (← x) ++ footer))
      (do return unlines (header ++ (← y) ++ footer)) :=
  h.map (codeOf mark header) (codeOf mark footer ++ codeLines mark "") fun lines => by
    rw [codeLines_unlines, codeOf_append, codeOf_append, List.append_assoc]

theorem behind {x y : Except (Stop EmitError) (List String)} (h : Adds (codeOf mark) n x y)
    (header : List String) :
    Adds (codeLines mark) n (do return unlines (header ++ (← x)))
      (do return unlines (header ++ (← y))) := by
  simpa only [List.append_nil] using h.between header []

end Adds

/-! ## The writers -/

variable {write : Instruction → Except (Stop EmitError) (List String)}

/-- A writer of instructions that writes the label of each on comment lines before the rest. -/
def PutsLabelsFirst (start : String) (write : Instruction → Except (Stop EmitError) (List String)) :
    Prop :=
  ∀ i, write i = (write i.unlabelled).map (i.commentLines start ++ ·)

theorem adds_instructionLines (opens : Opens mark start) (first : PutsLabelsFirst start write)
    (instructions : List Instruction) :
    Adds (codeOf mark) (instructions.flatMap (·.leaked mark)).length
      (instructionLines write instructions)
      (instructionLines write (instructions.map Instruction.unlabelled)) := by
  induction instructions with
  | nil => exact .refl _
  | cons i rest ih =>
    rw [List.flatMap_cons, List.length_append]
    refine .append ?_ ih
    rw [first i]
    exact .commentLines opens i _

/-- Gathering instructions by columns pays no attention to labels. -/
theorem gatherColumns_unlabelled (instructions : List Instruction) :
    gatherColumns (instructions.map Instruction.unlabelled) =
      (gatherColumns instructions).map fun (column, group) =>
        (column, group.map Instruction.unlabelled) := by
  induction instructions with
  | nil => rfl
  | cons i rest ih =>
    rw [List.map_cons, gatherColumns, gatherColumns, ih]
    cases gatherColumns rest with
    | nil => rfl
    | cons group others =>
      by_cases same : group.1 = i.column
      · simp [same, Instruction.unlabelled]
      · simp [same, Instruction.unlabelled]

/-- The comment lines of several instructions have just the leaked lines as code. -/
theorem codeOf_flatMap_commentLines (opens : Opens mark start) (group : List Instruction) :
    codeOf mark (group.flatMap (·.commentLines start)) = group.flatMap (·.leaked mark) := by
  induction group with
  | nil => rfl
  | cons i rest ih =>
    rw [List.flatMap_cons, codeOf_append, codeOf_commentLines opens, ih, List.flatMap_cons]

/-- The labels of a moment stand between its heading and its operations. -/
theorem Cirq.adds_moment (opens : Opens mark start) (group : List Instruction)
    (heading moment : List String) :
    Adds (codeOf mark) (group.flatMap (·.leaked mark)).length
      (.ok (heading ++ group.flatMap (·.commentLines start) ++ moment))
      (.ok (heading ++ (group.map Instruction.unlabelled).flatMap (·.commentLines start) ++
        moment)) := by
  have none : (group.map Instruction.unlabelled).flatMap (·.commentLines start) = [] := by
    simp [Instruction.commentLines, Instruction.unlabelled]
  have comments : Adds (codeOf mark) (group.flatMap (·.leaked mark)).length
      (.ok (group.flatMap (·.commentLines start))) (.ok []) := by
    refine ⟨List.nil_sublist _, ?_⟩
    rw [codeOf_flatMap_commentLines opens]
    exact (Nat.zero_add _).symm
  rw [none]
  exact comments.map (f := fun lines => heading ++ lines ++ moment) (codeOf mark heading)
    (codeOf mark moment) fun lines => by rw [codeOf_append, codeOf_append]

theorem Cirq.adds_momentLines {operation : Instruction → Except (Stop EmitError) String}
    (opens : Opens mark "# ") (blind : ∀ i, operation i.unlabelled = operation i)
    (groups : List (Nat × List Instruction)) :
    Adds (codeOf mark) ((groups.flatMap (·.2)).flatMap (·.leaked mark)).length
      (momentLines operation groups)
      (momentLines operation (groups.map fun (column, group) =>
        (column, group.map Instruction.unlabelled))) := by
  induction groups with
  | nil => exact .refl _
  | cons group rest ih =>
    obtain ⟨column, group⟩ := group
    have same : (group.map Instruction.unlabelled).mapM operation = group.mapM operation := by
      rw [List.mapM_map]
      exact congrArg (List.mapM · group) (funext blind)
    rw [List.flatMap_cons, List.flatMap_append, List.length_append, List.map_cons, momentLines,
      momentLines, same]
    cases group.mapM operation with
    | error e => rfl
    | ok operations => exact .append (Cirq.adds_moment opens group _ _) ih

theorem opens_hash : Opens "#" "# " := ⟨by decide, fun _ => rfl⟩

theorem opens_slashes : Opens "//" "// " := ⟨by decide, fun _ => rfl⟩

theorem opens_indented : Opens "//" "    // " := ⟨by decide, fun _ => rfl⟩

theorem opens_indented_twice : Opens "//" "        // " := ⟨by decide, fun _ => rfl⟩

theorem OpenQasm.lines2_putsLabelsFirst : PutsLabelsFirst "// " fun i => .ok (lines2 i) :=
  fun _ => rfl

theorem OpenQasm.lines3_putsLabelsFirst : PutsLabelsFirst "// " fun i => .ok (lines3 i) :=
  fun _ => rfl

theorem Qiskit.lines_putsLabelsFirst : PutsLabelsFirst "# " fun i => .ok (lines i) := by
  intro i
  obtain ⟨⟨op, wires, params, label⟩, column⟩ := i
  cases op <;> rfl

theorem Quil.lines_putsLabelsFirst : PutsLabelsFirst "# " lines := by
  intro i
  obtain ⟨⟨op, wires, params, label⟩, column⟩ := i
  cases op <;> rfl

theorem Quil.scriptLines_putsLabelsFirst : PutsLabelsFirst "# " scriptLines := by
  intro i
  obtain ⟨⟨op, wires, params, label⟩, column⟩ := i
  cases op <;> rfl

theorem Braket.lines_putsLabelsFirst : PutsLabelsFirst "# " lines := by
  intro i
  obtain ⟨⟨op, wires, params, label⟩, column⟩ := i
  cases op <;> rfl

theorem Quest.lines_putsLabelsFirst : PutsLabelsFirst "    // " lines := by
  intro i
  have blind : callOf i.unlabelled = callOf i := rfl
  rw [lines, lines, blind]
  cases callOf i <;> rfl

theorem QSharp.lines_putsLabelsFirst : PutsLabelsFirst "        // " lines := by
  intro i
  have op : i.unlabelled.op = i.op := rfl
  have wires : i.unlabelled.wires = i.wires := rfl
  rw [lines, lines, op]
  cases operation? i.op with
  | none => rfl
  | some found =>
    obtain ⟨name, controls⟩ := found
    dsimp only
    rw [wires]
    by_cases few : i.wires.length < controls
    · rw [if_pos few, if_pos few]
      rfl
    · rw [if_neg few, if_neg few]
      rfl

/-! ## Programs -/

theorem instructionLines_ok (lines : Instruction → List String) (instructions : List Instruction) :
    instructionLines (fun i => .ok (lines i)) instructions = .ok (instructions.flatMap lines) := by
  induction instructions with
  | nil => rfl
  | cons i rest ih =>
    rw [instructionLines, ih]
    rfl

theorem adds_flatMap {lines : Instruction → List String} (opens : Opens mark start)
    (first : PutsLabelsFirst start fun i => .ok (lines i)) (instructions : List Instruction) :
    Adds (codeOf mark) (instructions.flatMap (·.leaked mark)).length
      (.ok (instructions.flatMap lines))
      (.ok ((instructions.map Instruction.unlabelled).flatMap lines)) := by
  rw [← instructionLines_ok, ← instructionLines_ok]
  exact adds_instructionLines opens first instructions

theorem Cirq.adds_byColumn (operation : Instruction → Except (Stop EmitError) String)
    (blind : ∀ i, operation i.unlabelled = operation i) (p : Program) :
    Adds (codeOf "#") (p.instructions.flatMap (·.leaked "#")).length
      (momentLines operation p.byColumn) (momentLines operation p.unlabelled.byColumn) := by
  have columns := Cirq.adds_momentLines opens_hash blind p.byColumn
  rwa [Program.byColumn, ← gatherColumns_unlabelled, flatMap_gatherColumns] at columns

/-- **Labels add the lines that they leak to the code, and nothing else.** -/
theorem Program.adds_emit {d : Dialect} (text : d.commentMark? = some mark) (p : Program) :
    Adds (codeLines mark) (p.instructions.flatMap (·.leaked mark)).length
      (d.emit p) (d.emit p.unlabelled) := by
  cases d with
  | qobj => cases text
  | qasm2 =>
    cases text
    exact (adds_flatMap opens_slashes OpenQasm.lines2_putsLabelsFirst _).behind _
  | qasm3 =>
    cases text
    exact (adds_flatMap opens_slashes OpenQasm.lines3_putsLabelsFirst _).behind _
  | qiskit =>
    cases text
    exact (adds_flatMap opens_hash Qiskit.lines_putsLabelsFirst _).behind _
  | quil =>
    cases text
    exact (adds_instructionLines opens_hash Quil.lines_putsLabelsFirst _).behind []
  | pyquil =>
    cases text
    exact (adds_instructionLines opens_hash Quil.scriptLines_putsLabelsFirst _).behind _
  | braket =>
    cases text
    exact (adds_instructionLines opens_hash Braket.lines_putsLabelsFirst _).behind _
  | quest =>
    cases text
    exact (adds_instructionLines opens_indented Quest.lines_putsLabelsFirst _).between _ _
  | qsharp =>
    cases text
    exact (adds_instructionLines opens_indented_twice QSharp.lines_putsLabelsFirst _).between _ _
  | cirq =>
    cases text
    exact (Cirq.adds_byColumn Cirq.operation (fun _ => rfl) p).behind _
  | tfq =>
    cases text
    exact (Cirq.adds_byColumn Cirq.tensorOperation (fun _ => rfl) p).between _ _

theorem eq_iff_of_adds {α : Type} {code : α → List (List Char)} {n : Nat} {a b : α}
    (h : Adds code n (.ok a) (.ok b)) : code a = code b ↔ n = 0 := by
  obtain ⟨sublist, length_eq⟩ := h
  constructor
  · intro same
    rw [same] at length_eq
    omega
  · intro none
    exact (sublist.eq_of_length (by omega)).symm

theorem length_leaked {instructions : List Instruction} :
    (instructions.flatMap (·.leaked mark)).length = 0 ↔ ∀ i ∈ instructions, i.Quiet mark := by
  simp only [List.length_eq_zero_iff, List.flatMap_eq_nil_iff, Instruction.leaked_eq_nil]

/-- **Programs that differ in their labels are rejected with the same error or written with the same
code, as far as their labels are quiet.** Where those of the second program are, the texts have the
same code exactly when those of the first one are. -/
theorem Program.codeLines_emit {d : Dialect} (text : d.commentMark? = some mark)
    (same : p.unlabelled = p'.unlabelled) :
    (∃ e, d.emit p = .error e ∧ d.emit p' = .error e) ∨
      ∃ t t', d.emit p = .ok t ∧ d.emit p' = .ok t' ∧
        ((∀ i ∈ p'.instructions, i.Quiet mark) →
          (codeLines mark t = codeLines mark t' ↔ ∀ i ∈ p.instructions, i.Quiet mark)) := by
  have first := adds_emit text p
  have second := adds_emit text p'
  rw [← same] at second
  match plain : d.emit p.unlabelled, h : d.emit p, h' : d.emit p' with
  | .error e, .error _, .error _ =>
    rw [plain, h] at first
    rw [plain, h'] at second
    cases first
    cases second
    exact .inl ⟨e, rfl, rfl⟩
  | .ok u, .ok t, .ok t' =>
    rw [plain, h] at first
    rw [plain, h'] at second
    refine .inr ⟨t, t', rfl, rfl, fun quiet => ?_⟩
    have code : codeLines mark t' = codeLines mark u :=
      (eq_iff_of_adds second).mpr (length_leaked.mpr quiet)
    rw [code, eq_iff_of_adds first, length_leaked]
  | .ok _, .error _, _ | .error _, .ok _, _ => simp [plain, h, Adds] at first
  | .ok _, _, .error _ | .error _, _, .ok _ => simp [plain, h', Adds] at second

/-- A label whose second line is a comment by itself makes no difference in Quil. -/
theorem Program.codeLines_emit_two_lines :
    let program (label : Option String) : Program :=
      ⟨1, [⟨{ op := .x, wires := [0], label := label }, 0⟩]⟩
    ∃ t t', Dialect.quil.emit (program (some "a\n  # b")) = .ok t ∧
      Dialect.quil.emit (program none) = .ok t' ∧ codeLines "#" t = codeLines "#" t' := by
  intro program
  have quiet (label : Option String)
      (h : ∀ text, label = some text → ∀ line ∈ furtherLines text, isComment "#" line) :
      ∀ i ∈ (program label).instructions, i.Quiet "#" := by
    intro i inside
    cases List.mem_singleton.mp inside
    exact h
  obtain ⟨e, error, -⟩ | ⟨t, t', h, h', iff⟩ :=
    @codeLines_emit "#" (program (some "a\n  # b")) (program none) .quil rfl rfl
  · cases error
  · refine ⟨t, t', h, h', (iff (quiet none fun _ h => by cases h)).mpr (quiet _ ?_)⟩
    intro text is
    cases is
    decide

/-- **A label that goes on in code is more than a comment**: in Quil, the second line of a label is
an instruction. -/
theorem Program.not_codeLines_emit :
    ¬ ∀ (d : Dialect) (mark : String) (p p' : Program), d.commentMark? = some mark →
      p.unlabelled = p'.unlabelled → (∀ i ∈ p.instructions, i.Complete) →
        (∃ e, d.emit p = .error e ∧ d.emit p' = .error e) ∨
          ∃ t t', d.emit p = .ok t ∧ d.emit p' = .ok t' ∧
            codeLines mark t = codeLines mark t' := by
  intro claim
  let program (label : Option String) : Program :=
    ⟨1, [⟨{ op := .x, wires := [0], label := label }, 0⟩]⟩
  have complete : ∀ i ∈ (program (some "a\nX 0")).instructions, i.Complete := by
    intro i inside
    cases List.mem_singleton.mp inside
    rfl
  obtain ⟨e, error, -⟩ | ⟨t, t', h, h', same⟩ :=
    claim .quil "#" (program (some "a\nX 0")) (program none) rfl rfl complete
  · cases error
  · cases h
    cases h'
    revert same
    decide +kernel

end CircuitGrid
