import CircuitGrid.Proofs.Calls
import CircuitGrid.Proofs.Labels

/-!
# Moments of Cirq scripts

A script adds a moment for every output column, with a list of operations. The elements of these
lists are the operations of the instructions, besides those in lines that labels leak. So what is
known of each operation is known of the whole script.

* `IsElement`: the elements of the lists of moments in lines of code;
* `Cirq.exists_script`: those of a script;
* **`Cirq.emit_calls`**: which of them are calls.
-/

namespace CircuitGrid

/-! ## Moments -/

/-- What stands around the list of operations in a line that adds a moment. -/
def momentLine (list : List Char) : List Char :=
  "circuit.append(cirq.Moment([".toList ++ list ++ "]))".toList

/-- The text is an element of a list of operations in one of the lines. -/
def IsElement (lines : List (List Char)) (text : List Char) : Prop :=
  ∃ list, momentLine list ∈ lines ∧ text ∈ elements list

section

variable {lines lines' : List (List Char)} {text : List Char}

theorem isElement_append :
    IsElement (lines ++ lines') text ↔ IsElement lines text ∨ IsElement lines' text := by
  simp only [IsElement, List.mem_append, or_and_right, exists_or]

theorem not_isElement_nil : ¬ IsElement [] text := by
  rintro ⟨list, inside, -⟩
  exact List.not_mem_nil inside

theorem momentLine_inj {list list' : List Char} :
    momentLine list = momentLine list' ↔ list = list' := by
  unfold momentLine
  rw [List.append_left_inj, List.append_right_inj]

theorem isElement_momentLine {list : List Char} :
    IsElement [momentLine list] text ↔ text ∈ elements list := by
  simp only [IsElement, List.mem_singleton, momentLine_inj, exists_eq_left]

/-- No elements are in lines that do not begin like those that add a moment. -/
theorem not_isElement_of_begins
    (others : ∀ line ∈ lines, ¬ "circuit.".toList <+: line) : ¬ IsElement lines text := by
  rintro ⟨list, inside, -⟩
  have parts : "circuit.append(cirq.Moment([" = "circuit." ++ "append(cirq.Moment([" := rfl
  refine others _ inside ?_
  unfold momentLine
  rw [parts, String.toList_append, List.append_assoc, List.append_assoc]
  exact List.prefix_append _ _

end

namespace Cirq

/-! ## Scripts -/

section

variable {d : Dialect} {operation : Instruction → Except (Stop EmitError) String}

theorem codeOf_singleton {mark text : String} : codeOf mark [text] = codeLines mark text :=
  List.flatMap_singleton _ _

theorem codeLines_of_oneLine {mark text : String} (oneLine : '\n' ∉ text.toList) :
    codeLines mark text = if isComment mark text.toList then [] else [text.toList] := by
  rw [codeLines, List.splitOn_eq_singleton oneLine, List.filter_singleton]
  cases isComment mark text.toList <;> rfl

theorem codeLines_moment {texts : List String} (oneLine : ∀ t ∈ texts, '\n' ∉ t.toList) :
    codeLines "#" ("circuit.append(cirq.Moment([" ++ ", ".intercalate texts ++ "]))") =
      [momentLine ([',', ' '].intercalate (texts.map String.toList))] := by
  have inner : '\n' ∉ (", ".intercalate texts).toList := fun h => by
    obtain ⟨t, isText, own⟩ := (mem_intercalate h).resolve_left (by decide)
    exact oneLine t isText own
  have start : '\n' ∉ "circuit.append(cirq.Moment([".toList := by simp
  have stop : '\n' ∉ "]))".toList := by simp
  have begins : "circuit.append(cirq.Moment([" = "c" ++ "ircuit.append(cirq.Moment([" := rfl
  rw [codeLines_of_oneLine (by simp only [String.toList_append, List.mem_append, start, inner, stop,
    or_false, not_false_eq_true]), if_neg]
  · unfold momentLine
    rw [String.toList_append, String.toList_append, String.toList_intercalate]
    rfl
  · rw [begins, String.toList_append, String.toList_append, String.toList_append]
    intro comment
    cases comment

theorem codeLines_heading (column : Nat) : codeLines "#" ("# column " ++ toString column) = [] := by
  have heading : "# column " = "# " ++ "column " := rfl
  have number : '\n' ∉ (toString column).toList := (isAngle_toString column).notMem rfl
  have oneLine : '\n' ∉ ("# column " ++ toString column).toList := by
    rw [String.toList_append, List.mem_append, not_or]
    exact ⟨by simp, number⟩
  rw [codeLines_of_oneLine oneLine, if_pos]
  rw [heading, String.append_assoc, String.toList_append]
  exact opens_hash.isComment _

/-- The elements in the lines of an output column are its operations, besides those in labels. -/
theorem isElement_moment {column : Nat} {group : List Instruction} {operations : List String}
    (own : List.Forall₂ (Written d) group (operations.map String.toList)) {text : List Char} :
    IsElement (codeOf "#" ([s!"# column {column}"] ++ group.flatMap (·.commentLines "# ") ++
        ["circuit.append(cirq.Moment([" ++ ", ".intercalate operations ++ "]))"])) text ↔
      text ∈ operations.map String.toList ∨ IsElement (group.flatMap (·.leaked "#")) text := by
  have each {P : List Char → Prop} (all : ∀ i t, Written d i t → P t) :
      ∀ t ∈ operations.map String.toList, P t := fun t isText => by
    obtain ⟨i, -, isWritten⟩ := exists_left_of_mem own isText
    exact all i t isWritten
  have heading : codeLines "#" s!"# column {column}" = [] := codeLines_heading column
  have oneLine : ∀ t ∈ operations, '\n' ∉ t.toList := fun t isText =>
    each (fun _ _ h => h.oneLine) _ (List.mem_map_of_mem isText)
  rw [codeOf_append, codeOf_append, codeOf_singleton, codeOf_singleton, heading,
    codeLines_moment oneLine, codeOf_flatMap_commentLines opens_hash, List.nil_append,
    isElement_append, isElement_momentLine,
    elements_intercalate (each fun _ _ h => h.isElementText), or_comm]

/-- The elements in the lines of output columns are what is written for the instructions, besides
those in labels. -/
theorem exists_elements {groups : List (Nat × List Instruction)} {lines : List String}
    (each : ∀ i ∈ groups.flatMap (·.2), ∃ text, operation i = .ok text ∧ Written d i text.toList)
    (written : momentLines operation groups = .ok lines) :
    ∃ texts, List.Forall₂ (Written d) (groups.flatMap (·.2)) texts ∧ ∀ text,
      IsElement (codeOf "#" lines) text ↔
        text ∈ texts ∨ IsElement ((groups.flatMap (·.2)).flatMap (·.leaked "#")) text := by
  induction groups generalizing lines with
  | nil =>
    cases written
    exact ⟨[], .nil, fun text => by simp [codeOf]⟩
  | cons group rest ih =>
    obtain ⟨column, group⟩ := group
    simp only [List.flatMap_cons, List.mem_append] at each
    rw [momentLines] at written
    simp only [Except.bind_eq_ok, pure, Except.pure, Except.ok.injEq] at written
    obtain ⟨operations, done, others, written, rfl⟩ := written
    obtain ⟨texts, rest, elementsOfRest⟩ := ih (fun i h => each i (.inr h)) written
    have own : List.Forall₂ (Written d) group (operations.map String.toList) := by
      rw [List.forall₂_map_right_iff]
      refine ((List.forall₂_and_left _ _).mpr
        ⟨fun i h => each i (.inl h), Except.mapM_eq_ok.mp done⟩).imp fun i text h => ?_
      obtain ⟨⟨text', found', isWritten⟩, found⟩ := h
      rw [found, Except.ok.injEq] at found'
      exact found' ▸ isWritten
    refine ⟨operations.map String.toList ++ texts, List.rel_append own rest, fun text => ?_⟩
    rw [codeOf_append, isElement_append, isElement_moment own, elementsOfRest, List.flatMap_cons,
      List.flatMap_append, isElement_append, List.mem_append]
    exact or_or_or_comm

/-- No elements are in texts of one line that do not begin like those that add a moment. -/
theorem not_isElement_codeOf {texts : List String}
    (others : ∀ t ∈ texts, '\n' ∉ t.toList ∧ ¬ "circuit.".toList <+: t.toList) {text : List Char} :
    ¬ IsElement (codeOf "#" texts) text := by
  refine not_isElement_of_begins fun line inside => ?_
  obtain ⟨t, isText, inside⟩ := List.mem_flatMap.mp inside
  obtain ⟨oneLine, other⟩ := others t isText
  rw [codeLines_of_oneLine oneLine] at inside
  split at inside
  · cases inside
  · exact List.mem_singleton.mp inside ▸ other

theorem register_other (before behind : String) (wires : Nat) (free : '\n' ∉ before.toList)
    (free' : '\n' ∉ behind.toList) :
    '\n' ∉ ("q" ++ before ++ toString wires ++ behind).toList ∧
      ¬ "circuit.".toList <+: ("q" ++ before ++ toString wires ++ behind).toList := by
  have number : '\n' ∉ (toString wires).toList := (isAngle_toString wires).notMem rfl
  constructor
  · simp only [String.toList_append, List.mem_append, not_or]
    exact ⟨⟨⟨by decide, free⟩, number⟩, free'⟩
  · simp only [String.toList_append]
    exact fun begins => absurd (List.cons_prefix_cons.mp begins).1 (by decide)

theorem isElement_unlines {header moments footer : List String} {text : List Char}
    (others : ∀ t ∈ header ++ footer, '\n' ∉ t.toList ∧ ¬ "circuit.".toList <+: t.toList) :
    IsElement (codeLines "#" (unlines (header ++ moments ++ footer))) text ↔
      IsElement (codeOf "#" moments) text := by
  have before : ¬ IsElement (codeOf "#" header) text :=
    not_isElement_codeOf fun t h => others t (List.mem_append_left _ h)
  have behind : ¬ IsElement (codeOf "#" footer) text :=
    not_isElement_codeOf fun t h => others t (List.mem_append_right _ h)
  have last : ¬ IsElement (codeLines "#" "") text := by
    rw [← codeOf_singleton]
    exact not_isElement_codeOf (by simp)
  rw [codeLines_unlines, codeOf_append, codeOf_append, isElement_append, isElement_append,
    isElement_append]
  simp only [before, behind, last, false_or, or_false]

theorem exists_script_of {p : Program} (complete : ∀ i ∈ p.instructions, i.Complete)
    (each : ∀ i, i.Complete → ∃ text, operation i = .ok text ∧ Written d i text.toList)
    (header footer : List String)
    (others : ∀ t ∈ header ++ footer, '\n' ∉ t.toList ∧ ¬ "circuit.".toList <+: t.toList)
    (emits : d.emit p = do
      return unlines (header ++ (← momentLines operation p.byColumn) ++ footer)) :
    ∃ script texts, d.emit p = .ok script ∧ List.Forall₂ (Written d) p.instructions texts ∧
      ∀ text, IsElement (codeLines "#" script) text ↔
        text ∈ texts ∨ IsElement (p.instructions.flatMap (·.leaked "#")) text := by
  have instructions : p.byColumn.flatMap (·.2) = p.instructions := flatMap_gatherColumns _
  have each : ∀ i ∈ p.byColumn.flatMap (·.2),
      ∃ text, operation i = .ok text ∧ Written d i text.toList := fun i h =>
    each i (complete i (instructions ▸ h))
  obtain ⟨lines, written⟩ := exists_momentLines fun i h => (each i h).imp fun _ => And.left
  obtain ⟨texts, own, elements⟩ := exists_elements each written
  rw [instructions] at own elements
  refine ⟨_, texts, by rw [emits, written]; rfl, own, fun text => ?_⟩
  rw [isElement_unlines others, elements]

/-- **The elements of a script** are what is written for the instructions, besides those in labels.
-/
theorem exists_script (isCirq : d = .cirq ∨ d = .tfq) {p : Program}
    (complete : ∀ i ∈ p.instructions, i.Complete) :
    ∃ script texts, d.emit p = .ok script ∧ List.Forall₂ (Written d) p.instructions texts ∧
      ∀ text, IsElement (codeLines "#" script) text ↔
        text ∈ texts ∨ IsElement (p.instructions.flatMap (·.leaked "#")) text := by
  have line := register_other " = cirq.LineQubit.range(" ")" p.wires (by simp) (by simp)
  have grid := register_other " = cirq.GridQubit.rect(1, " ")" p.wires (by simp) (by simp)
  obtain rfl | rfl := isCirq
  · refine exists_script_of complete (fun i => written_operation) ["import cirq",
      "import numpy as np", "", s!"q = cirq.LineQubit.range({p.wires})",
      "circuit = cirq.Circuit()"] [] ?_ (by simp [Dialect.emit, emit])
    simp only [List.append_nil, List.forall_mem_cons]
    exact ⟨by simp, by simp, by simp, line, by simp, List.forall_mem_nil _⟩
  · refine exists_script_of complete (fun i => written_tensorOperation) ["import cirq",
      "import numpy as np", "import tensorflow_quantum as tfq", "",
      s!"q = cirq.GridQubit.rect(1, {p.wires})", "circuit = cirq.Circuit()"]
      ["", "circuit_tensor = tfq.convert_to_tensor([circuit])"] ?_ rfl
    simp only [List.cons_append, List.nil_append, List.forall_mem_cons]
    exact ⟨by simp, by simp, by simp, by simp, grid, by simp, by simp, by simp, List.forall_mem_nil _⟩

/-- **Which operations of a Cirq script are calls.** Every instruction with all its wires has an
element in the list of a moment. The element applies a whole gate to the wires of the instruction,
but for the operations whose gate is a bare power, where it applies no whole gate to any wires. So
all elements are calls exactly when the program has no such operation, as far as none are in the
lines that labels leak. -/
theorem emit_calls (isCirq : d = .cirq ∨ d = .tfq) {p : Program}
    (complete : ∀ i ∈ p.instructions, i.Complete) :
    ∃ script, d.emit p = .ok script ∧
      (∀ i ∈ p.instructions, ∃ text, IsElement (codeLines "#" script) text ∧
        if d.isPower i.op then ∀ wires, ¬ IsCall d wires text else IsCall d i.wires text) ∧
      ((∀ text, IsElement (codeLines "#" script) text → ∃ wires, IsCall d wires text) ↔
        (∀ i ∈ p.instructions, d.isPower i.op = false) ∧
          ∀ text, IsElement (p.instructions.flatMap (·.leaked "#")) text →
            ∃ wires, IsCall d wires text) := by
  obtain ⟨script, texts, emitted, own, elements⟩ := exists_script isCirq complete
  refine ⟨script, emitted, fun i inside => ?_, ?_⟩
  · obtain ⟨text, isText, written⟩ := exists_right_of_mem own inside
    refine ⟨text, (elements text).mpr (.inl isText), ?_⟩
    split
    · next power => exact written.not_isCall power
    · next whole => exact written.isCall (Bool.not_eq_true _ ▸ whole)
  · constructor
    · intro all
      refine ⟨fun i inside => ?_, fun text leaked => all text ((elements text).mpr (.inr leaked))⟩
      obtain ⟨text, isText, written⟩ := exists_right_of_mem own inside
      obtain ⟨wires, call⟩ := all text ((elements text).mpr (.inl isText))
      by_contra power
      exact written.not_isCall (Bool.not_eq_false _ ▸ power) wires call
    · rintro ⟨whole, labels⟩ text isElement
      obtain isText | leaked := (elements text).mp isElement
      · obtain ⟨i, inside, written⟩ := exists_left_of_mem own isText
        exact ⟨i.wires, written.isCall (whole i inside)⟩
      · exact labels text leaked

/-- Two roots and a turn back under controls, which Cirq puts into parentheses, beside a rotation.
-/
theorem emit_calls_controlled :
    let p : Program := ⟨3, [⟨{ op := .csx, wires := [0, 1], label := some "root" }, 0⟩,
      ⟨{ op := .rx, wires := [2], params := [1] }, 0⟩, ⟨{ op := .csdg, wires := [2, 0] }, 1⟩]⟩
    ∃ script, Dialect.cirq.emit p = .ok script ∧
      ∀ text, IsElement (codeLines "#" script) text → ∃ wires, IsCall .cirq wires text := by
  intro p
  have quiet : p.instructions.flatMap (·.leaked "#") = [] := by decide +kernel
  have complete : ∀ i ∈ p.instructions, i.Complete := by simp [p, Instruction.Complete, Op.arity]
  obtain ⟨script, emitted, -, iff⟩ := @emit_calls .cirq (.inl rfl) p complete
  refine ⟨script, emitted, iff.mpr ⟨by simp [p, Dialect.isPower], fun text leaked => ?_⟩⟩
  rw [quiet] at leaked
  exact absurd leaked not_isElement_nil

/-- **A gate that is not applied as a whole**: the inverse of S is applied as a power. -/
theorem not_emit_calls :
    ¬ ∀ (d : Dialect) (p : Program), d = .cirq ∨ d = .tfq →
      (∀ i ∈ p.instructions, i.Complete) → ∃ script, d.emit p = .ok script ∧
        ∀ text, IsElement (codeLines "#" script) text → ∃ wires, IsCall d wires text := by
  intro all
  let i : Instruction := ⟨{ op := .sdg, wires := [0] }, 0⟩
  have complete : ∀ j ∈ [i], j.Complete := by simp [i, Instruction.Complete, Op.arity]
  obtain ⟨script, emitted, calls⟩ := all .cirq ⟨1, [i]⟩ (.inl rfl) complete
  obtain ⟨script', texts, emitted', own, elements⟩ :=
    @exists_script .cirq (.inl rfl) ⟨1, [i]⟩ complete
  obtain rfl : script = script' := Except.ok.inj (emitted.symm.trans emitted')
  obtain ⟨text, isText, written⟩ := exists_right_of_mem own (List.mem_singleton_self i)
  obtain ⟨wires, call⟩ := calls text ((elements text).mpr (.inl isText))
  exact written.not_isCall rfl wires call

end

end Cirq

end CircuitGrid
