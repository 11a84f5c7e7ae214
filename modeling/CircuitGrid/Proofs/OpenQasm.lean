import CircuitGrid.Dialect.OpenQasm
import CircuitGrid.Proofs.Json.Numbers
import Mathlib

/-!
# Programs that OpenQASM 3 tells apart

Two programs have the same OpenQASM 3 text only if they agree in all that is written. A text is
taken apart from the outside: into lines at the line breaks, into comments and statements by their
first characters, a statement into its name, its angles and its wires. No name is the beginning of
another one up to a blank or a parenthesis, and neither angles nor elements of the register contain
commas, parentheses or line breaks.

* `IsItem`: texts that may be listed, and `intercalate_inj`: lists of them are told apart;
* `OpenQasm.statement_inj`: so are statements;
* `Instruction.SameText`: what is written of an instruction;
* **`OpenQasm.emit3_eq_iff`**: so are whole programs.
-/

namespace CircuitGrid

/-! ## Texts in sequence -/

/-- What is ended by a separator that it does not contain is told apart from what follows. -/
theorem append_cons_inj {α : Type} {a : α} {xs ys rest rest' : List α} (free : a ∉ xs)
    (free' : a ∉ ys) : xs ++ a :: rest = ys ++ a :: rest' ↔ xs = ys ∧ rest = rest' := by
  constructor
  · intro same
    obtain ⟨more, rfl, same⟩ | ⟨more, rfl, same⟩ := List.append_eq_append_iff.mp same <;>
      cases more <;> simp_all
  · rintro ⟨rfl, rfl⟩
    rfl

/-- What goes on with a character is told apart from what does not begin with the same. -/
theorem eq_of_append_cons {α : Type} {a b : α} {xs ys rest rest' : List α}
    (apart : ¬ (xs ++ [a]) <+: ys) (apart' : ¬ (ys ++ [b]) <+: xs)
    (same : xs ++ a :: rest = ys ++ b :: rest') : xs = ys := by
  obtain ⟨more, rfl, rests⟩ | ⟨more, rfl, rests⟩ := List.append_eq_append_iff.mp same
  · cases more with
    | nil => rw [List.append_nil]
    | cons c more =>
      obtain ⟨rfl, -⟩ := List.cons.inj rests
      exact absurd ⟨more, by simp⟩ apart
  · cases more with
    | nil => rw [List.append_nil]
    | cons c more =>
      obtain ⟨rfl, -⟩ := List.cons.inj rests
      exact absurd ⟨more, by simp⟩ apart'

/-- Texts that are each followed by a separator, of which they do not contain the first character,
are told apart. -/
theorem join_append_inj {separator : String} {c : Char} {tail : List Char}
    (begins : separator.toList = c :: tail) {texts texts' : List String}
    (free : ∀ t ∈ texts, c ∉ t.toList) (free' : ∀ t ∈ texts', c ∉ t.toList) :
    String.join (texts.map (· ++ separator)) = String.join (texts'.map (· ++ separator)) ↔
      texts = texts' := by
  rw [← String.toList_inj, String.toList_join, String.toList_join, List.flatMap_map,
    List.flatMap_map]
  simp only [String.toList_append, begins]
  induction texts generalizing texts' with
  | nil => cases texts' <;> simp
  | cons t rest ih =>
    cases texts' with
    | nil => simp
    | cons t' rest' =>
      obtain ⟨head, free⟩ := List.forall_mem_cons.mp free
      obtain ⟨head', free'⟩ := List.forall_mem_cons.mp free'
      rw [List.flatMap_cons, List.flatMap_cons, List.append_assoc, List.append_assoc,
        List.cons_append, List.cons_append, append_cons_inj head head', List.append_cancel_left_eq,
        ih free free', String.toList_inj, List.cons.injEq]

theorem unlines_inj {lines lines' : List String} (oneLine : ∀ l ∈ lines, '\n' ∉ l.toList)
    (oneLine' : ∀ l ∈ lines', '\n' ∉ l.toList) : unlines lines = unlines lines' ↔ lines = lines' :=
  join_append_inj (show "\n".toList = '\n' :: [] from rfl) oneLine oneLine'

/-! ## Items of lists -/

/-- The characters of numbers and angles. -/
def isAngleChar (c : Char) : Bool := c.isAlphanum || "-./".toList.contains c

/-- The text of a number or of an angle: it is not empty and has neither commas nor brackets. -/
structure IsAngle (text : String) : Prop where
  ne_empty : text ≠ ""
  chars : text.toList.all isAngleChar

/-- The characters of numbers, angles and elements of the register. -/
def isItemChar (c : Char) : Bool := c.isAlphanum || "-./[]".toList.contains c

/-- A text that may be listed: it is not empty and has neither commas nor parentheses. -/
structure IsItem (text : String) : Prop where
  ne_empty : text ≠ ""
  chars : text.toList.all isItemChar

theorem intercalate_append {texts : List String} (some : texts ≠ []) :
    ", ".intercalate texts ++ ", " = String.join (texts.map (· ++ ", ")) := by
  induction texts with
  | nil => exact absurd rfl some
  | cons t rest ih =>
    cases rest with
    | nil => simp [String.join_cons]
    | cons u rest =>
      rw [String.intercalate_cons_cons, String.append_assoc, ih (List.cons_ne_nil u rest)]
      simp only [List.map_cons, String.join_cons]

theorem intercalate_ne_empty {text : String} {rest : List String} (h : text ≠ "") :
    ", ".intercalate (text :: rest) ≠ "" := by
  cases rest <;> simp [String.intercalate_cons_cons, h]

theorem notMem_of_all {test : Char → Bool} {chars : List Char} (all : chars.all test) {c : Char}
    (foreign : test c = false) : c ∉ chars := by
  intro own
  rw [List.all_eq_true.mp all c own] at foreign
  cases foreign

theorem IsItem.notMem {text : String} (item : IsItem text) {c : Char}
    (foreign : isItemChar c = false) : c ∉ text.toList := notMem_of_all item.chars foreign

/-- **Lists of items are told apart.** -/
theorem intercalate_inj {texts texts' : List String} (items : ∀ t ∈ texts, IsItem t)
    (items' : ∀ t ∈ texts', IsItem t) :
    ", ".intercalate texts = ", ".intercalate texts' ↔ texts = texts' := by
  have free {t : String} (item : IsItem t) : ',' ∉ t.toList := item.notMem rfl
  refine ⟨fun same => ?_, congrArg _⟩
  match texts, texts' with
  | [], [] => rfl
  | [], t :: rest =>
    exact absurd same.symm (intercalate_ne_empty (items' t List.mem_cons_self).ne_empty)
  | t :: rest, [] =>
    exact absurd same (intercalate_ne_empty (items t List.mem_cons_self).ne_empty)
  | t :: rest, t' :: rest' =>
    refine (join_append_inj (show ", ".toList = ',' :: [' '] from rfl) (fun t h => free (items t h))
      fun t h => free (items' t h)).mp ?_
    rw [← intercalate_append (List.cons_ne_nil t rest), same,
      intercalate_append (List.cons_ne_nil t' rest')]

/-- A list has no characters but those of its items, commas and blanks. -/
theorem mem_intercalate {texts : List String} {c : Char}
    (h : c ∈ (", ".intercalate texts).toList) : c ∈ ", ".toList ∨ ∃ t ∈ texts, c ∈ t.toList := by
  cases texts with
  | nil => cases h
  | cons t rest =>
    have inside : c ∈ (", ".intercalate (t :: rest) ++ ", ").toList := by
      rw [String.toList_append]
      exact List.mem_append_left _ h
    rw [intercalate_append (List.cons_ne_nil t rest), String.toList_join, List.flatMap_map,
      List.mem_flatMap] at inside
    obtain ⟨u, isItem, inside⟩ := inside
    rw [String.toList_append, List.mem_append] at inside
    exact inside.symm.imp_right fun own => ⟨u, isItem, own⟩

theorem notMem_intercalate {texts : List String} (items : ∀ t ∈ texts, IsItem t) {c : Char}
    (between : c ∉ ", ".toList) (foreign : isItemChar c = false) :
    c ∉ (", ".intercalate texts).toList := by
  intro h
  obtain ⟨u, isItem, inside⟩ := (mem_intercalate h).resolve_left between
  exact (items u isItem).notMem foreign inside

/-! ## Angles and wires are items -/

theorem IsAngle.isItem {text : String} (angle : IsAngle text) : IsItem text := by
  have marks : "-./".toList ⊆ "-./[]".toList := by simp
  refine ⟨angle.ne_empty, List.all_eq_true.mpr fun c h => ?_⟩
  have own := List.all_eq_true.mp angle.chars c h
  simp only [isAngleChar, isItemChar, Bool.or_eq_true, List.contains_iff_mem] at own ⊢
  exact own.imp_right (marks ·)

theorem IsAngle.notMem {text : String} (angle : IsAngle text) {c : Char}
    (foreign : isAngleChar c = false) : c ∉ text.toList := notMem_of_all angle.chars foreign

theorem isAngle_toString (n : Nat) : IsAngle (toString n) := by
  refine ⟨by simp, ?_⟩
  rw [Nat.toString_eq_repr, Nat.toList_repr, List.all_eq_true]
  intro c h
  simp [isAngleChar, Char.isAlphanum, Reader.isDigit_of_mem_toDigits h]

theorem all_isAngleChar_paddedDigits (width n : Nat) :
    (paddedDigits width n).toList.all isAngleChar := by
  rw [paddedDigits, String.toList_append, toList_pushn, List.all_append, (isAngle_toString _).chars,
    Bool.and_true, String.toList_empty, List.nil_append, List.all_replicate]
  split <;> rfl

theorem isAngle_fixed (places : Nat) (x : Float) : IsAngle (fixed places x) := by
  have sign : (if isNegative x then "-" else "").toList.all isAngleChar := by
    split <;> rfl
  unfold fixed
  split
  · exact ⟨by decide, rfl⟩
  · dsimp only
    split
    · refine ⟨by simp, ?_⟩
      rw [String.toList_append, List.all_append, sign]
      rfl
    · refine ⟨by simp, ?_⟩
      simp only [String.toList_append, List.all_append, sign, (isAngle_toString _).chars,
        all_isAngleChar_paddedDigits]
      rfl

/-- The texts of angles, if the name of a half turn is such a text. -/
theorem isAngle_write {name : String} (constant : IsAngle name) (angle : Float) :
    IsAngle (Angle.write name angle) := by
  unfold Angle.write
  split
  · next factor sign divisor found =>
    have all : Angle.fractions.all fun (_, sign, divisor) =>
        sign.toList.all isAngleChar && divisor.toList.all isAngleChar := by decide +kernel
    have chars := List.all_eq_true.mp all _ (List.mem_of_find?_eq_some found)
    simp only [Bool.and_eq_true] at chars
    refine ⟨by simp [constant.ne_empty], ?_⟩
    rw [String.toList_append, String.toList_append, List.all_append, List.all_append, chars.1,
      constant.chars, chars.2]
    rfl
  · exact isAngle_fixed 6 angle

theorem isItem_of_mem_registerItems {wires : List Nat} {text : String}
    (h : text ∈ registerItems wires) : IsItem text := by
  obtain ⟨wire, -, rfl⟩ := List.mem_map.mp h
  refine ⟨by simp, ?_⟩
  simp only [String.toList_append, List.all_append, (isAngle_toString _).isItem.chars]
  rfl

theorem registerItems_inj {wires wires' : List Nat} :
    registerItems wires = registerItems wires' ↔ wires = wires' := by
  refine List.map_inj_right fun wire wire' same => ?_
  simpa using same

/-! ## Statements -/

namespace OpenQasm

/-- What follows the name in a statement. -/
def operands (params : List Float) (wires : List Nat) : String :=
  (if params.isEmpty then "" else "(" ++ Angle.writeAll "pi" params ++ ")") ++ " " ++
    ", ".intercalate (registerItems wires) ++ ";"

theorem statement_eq (name : String) (params : List Float) (wires : List Nat) :
    statement name params wires = name ++ operands params wires := by
  simp [statement, operands, String.append_assoc]

/-- The name of a statement is followed by a blank or a parenthesis. -/
theorem operands_begins (params : List Float) (wires : List Nat) :
    ∃ c rest, (operands params wires).toList = c :: rest ∧ c ∈ [' ', '('] := by
  cases params <;> simp [operands]

theorem items_angles (params : List Float) : ∀ t ∈ params.map (Angle.write "pi"), IsItem t := by
  simp only [List.forall_mem_map]
  exact fun angle _ => (isAngle_write ⟨by simp, rfl⟩ angle).isItem

/-- **What follows the name tells angles and wires.** -/
theorem operands_inj {params params' : List Float} {wires wires' : List Nat} :
    operands params wires = operands params' wires' ↔
      params.map (Angle.write "pi") = params'.map (Angle.write "pi") ∧ wires = wires' := by
  have wiresOf : ", ".intercalate (registerItems wires) = ", ".intercalate (registerItems wires') ↔
      wires = wires' := by
    rw [intercalate_inj (fun _ => isItem_of_mem_registerItems) fun _ => isItem_of_mem_registerItems,
      registerItems_inj]
  have closed {params : List Float} : ')' ∉ (Angle.writeAll "pi" params).toList :=
    notMem_intercalate (items_angles params) (by decide) rfl
  match params, params' with
  | [], [] => simp [operands, wiresOf]
  | [], a' :: rest' => simp [operands, ← String.toList_inj]
  | a :: rest, [] => simp [operands, ← String.toList_inj]
  | a :: rest, a' :: rest' =>
    rw [← wiresOf, ← intercalate_inj (items_angles _) (items_angles _)]
    have split (params : List Float) (wires : List Nat) (some : params ≠ []) :
        (operands params wires).toList = '(' :: ((Angle.writeAll "pi" params).toList ++ ')' ::
          ' ' :: ((", ".intercalate (registerItems wires)).toList ++ [';'])) := by
      simp [operands, some]
    rw [← String.toList_inj, split _ _ (List.cons_ne_nil a rest),
      split _ _ (List.cons_ne_nil a' rest'), List.cons.injEq, append_cons_inj closed closed]
    simp [Angle.writeAll, ← String.toList_inj]

/-- No name of an operation is the beginning of another one up to a blank or a parenthesis. -/
theorem name3_not_beginning (op op' : Op) {c : Char} (h : c ∈ [' ', '(']) :
    ¬ ((name3 op).toList ++ [c]) <+: (name3 op').toList := by
  have all : Op.all.all fun op => Op.all.all fun op' => [' ', '('].all fun c =>
      !((name3 op).toList ++ [c]).isPrefixOf (name3 op').toList := by decide +kernel
  have each := List.all_eq_true.mp (List.all_eq_true.mp (List.all_eq_true.mp all op op.mem_all) op'
    op'.mem_all) c h
  intro starts
  rw [List.isPrefixOf_iff_prefix.mpr starts] at each
  cases each

theorem name3_inj {op op' : Op} : name3 op = name3 op' ↔ op = op' := by
  have all : Op.all.all fun op => Op.all.all fun op' => name3 op != name3 op' || op == op' := by
    decide +kernel
  have each := List.all_eq_true.mp (List.all_eq_true.mp all op op.mem_all) op' op'.mem_all
  refine ⟨fun same => ?_, congrArg _⟩
  simpa [same] using each

/-- **Statements are told apart.** -/
theorem statement_inj {op op' : Op} {params params' : List Float} {wires wires' : List Nat} :
    statement (name3 op) params wires = statement (name3 op') params' wires' ↔
      op = op' ∧ wires = wires' ∧
        params.map (Angle.write "pi") = params'.map (Angle.write "pi") := by
  rw [statement_eq, statement_eq]
  constructor
  · intro same
    have chars := congrArg String.toList same
    rw [String.toList_append, String.toList_append] at chars
    obtain ⟨c, rest, begins, isEnd⟩ := operands_begins params wires
    obtain ⟨c', rest', begins', isEnd'⟩ := operands_begins params' wires'
    have names : (name3 op).toList = (name3 op').toList := by
      rw [begins, begins'] at chars
      exact eq_of_append_cons (name3_not_beginning op op' isEnd)
        (name3_not_beginning op' op isEnd') chars
    rw [names, List.append_cancel_left_eq, String.toList_inj, operands_inj] at chars
    exact ⟨name3_inj.mp (String.toList_inj.mp names), chars.2, chars.1⟩
  · rintro ⟨rfl, wires, angles⟩
    rw [operands_inj.mpr ⟨angles, wires⟩]

theorem oneLine_statement (op : Op) (params : List Float) (wires : List Nat) :
    '\n' ∉ (statement (name3 op) params wires).toList := by
  have name : '\n' ∉ (name3 op).toList := by
    cases op <;> decide
  have angles : '\n' ∉ (Angle.writeAll "pi" params).toList :=
    notMem_intercalate (items_angles params) (by decide) rfl
  have items : '\n' ∉ (", ".intercalate (registerItems wires)).toList :=
    notMem_intercalate (fun _ => isItem_of_mem_registerItems) (by decide) rfl
  rw [statement]
  split <;> simp [name, angles, items, -String.toList_intercalate]

theorem statement_ne_comment (op : Op) (params : List Float) (wires : List Nat) (label : String) :
    statement (name3 op) params wires ≠ "// " ++ label := by
  intro same
  have head := congrArg (·.toList.head?) same
  rw [statement_eq] at head
  cases op <;> simp [name3, Op.name] at head

end OpenQasm

/-! ## Programs -/

/-- Instructions of which the same is written: they differ in nothing but their columns and what
angles leave out. -/
structure Instruction.SameText (i i' : Instruction) : Prop where
  op : i.op = i'.op
  wires : i.wires = i'.wires
  label : i.label = i'.label
  angles : i.params.map (Angle.write "pi") = i'.params.map (Angle.write "pi")

namespace OpenQasm

variable {i i' : Instruction} {p p' : Program}

/-- The lines of an instruction are told apart, and from what follows. -/
theorem lines3_append_inj {rest rest' : List String} :
    lines3 i ++ rest = lines3 i' ++ rest' ↔ i.SameText i' ∧ rest = rest' := by
  have statements : statement (name3 i.op) i.params i.wires =
      statement (name3 i'.op) i'.params i'.wires ∧ i.label = i'.label ↔ i.SameText i' := by
    rw [statement_inj]
    exact ⟨fun ⟨⟨op, wires, angles⟩, label⟩ => ⟨op, wires, label, angles⟩,
      fun same => ⟨⟨same.op, same.wires, same.angles⟩, same.label⟩⟩
  rw [← statements, lines3, lines3, Instruction.commentLines, Instruction.commentLines]
  cases i.label with
  | none =>
    cases i'.label with
    | none => simp
    | some label' => simp [statement_ne_comment]
  | some label =>
    cases i'.label with
    | none => simp [(statement_ne_comment _ _ _ _).symm]
    | some label' => simp [and_assoc, and_left_comm]

/-- **The lines of instructions are told apart.** -/
theorem flatMap_lines3_inj {these those : List Instruction} :
    these.flatMap lines3 = those.flatMap lines3 ↔
      List.Forall₂ Instruction.SameText these those := by
  have some (i : Instruction) (rest : List String) : lines3 i ++ rest ≠ [] := by simp [lines3]
  induction these generalizing those with
  | nil => cases those <;> simp [(some _ _).symm]
  | cons i rest ih =>
    cases those with
    | nil => simp [some]
    | cons i' rest' =>
      rw [List.flatMap_cons, List.flatMap_cons, lines3_append_inj, List.forall₂_cons]
      exact and_congr_right' ih

/-- The declaration of the register is told apart from what follows, which has no empty lines. -/
theorem register_append_inj {m n : Nat} {rest rest' : List String} (some : "" ∉ rest)
    (some' : "" ∉ rest') :
    register m s!"qubit[{m}] q;" ++ rest = register n s!"qubit[{n}] q;" ++ rest' ↔
      m = n ∧ rest = rest' := by
  unfold register
  split <;> split
  · next none none' => simp [none, none']
  · next none other =>
    refine iff_of_false (fun same => some ?_) fun same => other (same.1 ▸ none)
    rw [List.nil_append] at same
    simp [same]
  · next other none =>
    refine iff_of_false (fun same => some' ?_) fun same => other (same.1 ▸ none)
    rw [List.nil_append] at same
    simp [← same]
  · simp

theorem empty_notMem_lines3 : "" ∉ lines3 i := by
  have some : statement (name3 i.op) i.params i.wires ≠ "" := by simp [statement]
  rw [lines3, Instruction.commentLines]
  cases i.label <;> simp [some.symm]

theorem oneLine_lines3 (oneLine : ∀ label, i.label = some label → '\n' ∉ label.toList)
    {line : String} (h : line ∈ lines3 i) : '\n' ∉ line.toList := by
  rw [lines3, List.mem_append, List.mem_singleton, Instruction.commentLines] at h
  cases found : i.label with
  | none =>
    simp only [found, List.not_mem_nil, false_or] at h
    rw [h]
    exact oneLine_statement i.op i.params i.wires
  | some label =>
    simp only [found, List.mem_singleton] at h
    obtain rfl | rfl := h
    · simp [oneLine label found]
    · exact oneLine_statement i.op i.params i.wires

theorem oneLine_emit3
    (oneLine : ∀ i ∈ p.instructions, ∀ label, i.label = some label → '\n' ∉ label.toList) :
    ∀ line ∈ ["OPENQASM 3.0;", "include \"stdgates.inc\";", ""] ++
      register p.wires s!"qubit[{p.wires}] q;" ++ p.instructions.flatMap lines3,
        '\n' ∉ line.toList := by
  intro line h
  rw [List.mem_append, List.mem_append] at h
  obtain (h | h) | h := h
  · revert line
    decide
  · have number : '\n' ∉ (toString p.wires).toList := (isAngle_toString p.wires).notMem rfl
    unfold register at h
    split at h
    · cases h
    · obtain rfl | rfl := List.mem_pair.mp h
      · simp only [String.toList_append, List.mem_append, not_or]
        exact ⟨⟨by decide, number⟩, by decide⟩
      · decide
  · obtain ⟨i, inside, h⟩ := List.mem_flatMap.mp h
    exact oneLine_lines3 (oneLine i inside) h

/-- **OpenQASM 3 texts are told apart.** Two programs whose labels have no line breaks have the same
text exactly when they have as many wires and instructions, and the instructions have the same
operations, wires, labels and written angles in turn. -/
theorem emit3_eq_iff
    (oneLine : ∀ i ∈ p.instructions, ∀ label, i.label = some label → '\n' ∉ label.toList)
    (oneLine' : ∀ i ∈ p'.instructions, ∀ label, i.label = some label → '\n' ∉ label.toList) :
    emit3 p = emit3 p' ↔
      p.wires = p'.wires ∧ List.Forall₂ Instruction.SameText p.instructions p'.instructions := by
  have some {instructions : List Instruction} : "" ∉ instructions.flatMap lines3 := fun h => by
    obtain ⟨i, -, h⟩ := List.mem_flatMap.mp h
    exact empty_notMem_lines3 h
  rw [emit3, emit3, unlines_inj (oneLine_emit3 oneLine) (oneLine_emit3 oneLine'), List.append_assoc,
    List.append_assoc, List.append_cancel_left_eq, register_append_inj some some,
    flatMap_lines3_inj]

/-- Two programs that differ in a column and in the tenth digit of an angle only. -/
theorem emit3_eq_rounded :
    let program (angle : Float) (column : Nat) : Program :=
      ⟨3, [⟨{ op := .crx, wires := [2, 0], params := [angle, 3.141592653589793] }, 0⟩,
        ⟨{ op := .csx, wires := [0, 1], label := some "NL-CNOT(0→1)" }, column⟩]⟩
    let labels (p : Program) : Prop :=
      ∀ i ∈ p.instructions, ∀ label, i.label = some label → '\n' ∉ label.toList
    labels (program 0.1 1) ∧ labels (program 0.1000000001 7) ∧
      emit3 (program 0.1 1) = emit3 (program 0.1000000001 7) := by
  intro program labels
  have oneLine (angle : Float) (column : Nat) : labels (program angle column) := by
    simp [labels, program]
  refine ⟨oneLine _ _, oneLine _ _, (emit3_eq_iff (oneLine _ _) (oneLine _ _)).mpr ⟨rfl, ?_⟩⟩
  refine .cons ⟨rfl, rfl, rfl, ?_⟩ (.cons ⟨rfl, rfl, rfl, rfl⟩ .nil)
  decide +kernel

end OpenQasm

end CircuitGrid
