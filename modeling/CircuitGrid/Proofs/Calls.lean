import CircuitGrid.Proofs.Brackets
import CircuitGrid.Proofs.OpenQasm
import CircuitGrid.Proofs.Writing

/-!
# Operations that apply a whole gate

In Python a call binds tighter than a power. A gate that is written as a power has to stand in
brackets before it is applied, or else its exponent is applied. The Cirq scripts put such gates into
brackets only where a control is added by `ControlledGate`.

* `IsCall`: texts that apply a whole gate to wires;
* `Dialect.isPower`: the operations whose gates are applied as bare powers;
* `Cirq.names`, `Cirq.GateText`: the names of gates, and the texts of gates with their arguments;
* **`Cirq.Written`**, `Cirq.written_operation`, `Cirq.written_tensorOperation`: what the two
  dialects write for an instruction;
* `Cirq.Written.isCall`, `Cirq.Written.not_isCall`: which of it is a call.
-/

namespace CircuitGrid

/-! ## Calls -/

/-- The text is a gate as a whole: its brackets match, and there is no power outside of them. -/
structure IsWhole (gate : List Char) : Prop where
  ne_nil : gate ≠ []
  noPower : ∃ outer, Outside gate outer ∧ ¬ ['*', '*'] <:+: outer

/-- The elements of the register for wires, in parentheses. -/
def operandList (wires : List Nat) : List Char :=
  '(' :: ((", ".intercalate (registerItems wires)).toList ++ [')'])

/-- The text applies a whole gate to wires. In TensorFlow Quantum controls may be added behind, and
their wires come first. -/
inductive IsCall (d : Dialect) : List Nat → List Char → Prop
  | plain {gate : List Char} {wires : List Nat} : IsWhole gate → wires ≠ [] →
      IsCall d wires (gate ++ operandList wires)
  | controlled {gate : List Char} {controls targets : List Nat} : d = .tfq → IsWhole gate →
      targets ≠ [] → IsCall d (controls ++ targets)
        (gate ++ operandList targets ++ ".controlled_by".toList ++ operandList controls)

/-- The operations for which a dialect applies the power of a gate without brackets around it. -/
def Dialect.isPower : Dialect → Op → Bool
  | _, .sdg | _, .tdg | _, .sx | _, .sxdg => true
  | .tfq, .csdg | .tfq, .ctdg | .tfq, .csx => true
  | _, _ => false

/-- A power that ends in a text without its sign begins before. -/
theorem power_of_append {text rest : List Char} (power : ['*', '*'] <:+: text ++ rest)
    (free : '*' ∉ rest) : ['*', '*'] <:+: text := by
  obtain ⟨before, behind, whole⟩ := power
  obtain ⟨more, rfl, -⟩ | ⟨more, begins, rfl⟩ := List.append_eq_append_iff.mp whole
  · exact ⟨before, more, rfl⟩
  · obtain rfl | ⟨more, c, rfl⟩ := List.eq_nil_or_concat more
    · exact ⟨before, [], by simpa using begins⟩
    · have last : (before ++ ['*']) ++ ['*'] = (text ++ more) ++ [c] := by simpa using begins
      obtain ⟨-, same⟩ := List.append_inj' last rfl
      cases same
      simp at free

/-- **A power without brackets is not applied as a whole**, whatever comes behind. -/
theorem not_isCall_of_power {d : Dialect} {name rest : List Char} {wires : List Nat}
    (plain : ∀ c ∈ name, isBracket c = false) (power : ['*', '*'] <:+: name) :
    ¬ IsCall d wires (name ++ '(' :: rest) := by
  have noParenthesis : '(' ∉ name := fun h => by cases plain _ h
  have notWhole {gate more : List Char} (same : name ++ '(' :: rest = gate ++ '(' :: more) :
      ¬ IsWhole gate := by
    rintro ⟨-, outer, outside, noPower⟩
    -- The first parenthesis is behind the name, so that any gate begins with the name.
    obtain ⟨behind, rfl⟩ : name <+: gate := by
      obtain ⟨behind, begins, -⟩ | ⟨behind, begins, same⟩ := List.append_eq_append_iff.mp same
      · exact ⟨behind, begins.symm⟩
      · cases behind with
        | nil => exact ⟨[], by simpa using begins⟩
        | cons c behind =>
          obtain ⟨rfl, -⟩ := List.cons.inj same
          exact absurd (begins ▸ by simp) noParenthesis
    obtain ⟨outer, rfl⟩ := outside.exists_of_append plain
    exact noPower (power.trans (List.prefix_append name outer).isInfix)
  generalize whole : name ++ '(' :: rest = text
  intro call
  cases call with
  | plain isWhole => exact notWhole whole isWhole
  | @controlled gate controls targets _ isWhole =>
    rw [List.append_assoc, List.append_assoc] at whole
    exact notWhole whole isWhole

/-! ## The texts of gates -/

namespace Cirq

/-- The characters of names of gates, with an exponent or without. -/
def isNameChar (c : Char) : Bool := c.isAlphanum || ['.', '/', '*', '-'].contains c

/-- The name of a gate, which is a power or not. -/
structure IsName (power : Bool) (text : List Char) : Prop where
  chars : text.all isNameChar
  begins : text.head? = some 'c'
  isPower : power ↔ ['*', '*'] <:+: text

instance (power : Bool) (text : List Char) : Decidable (IsName power text) :=
  decidable_of_iff
    (text.all isNameChar ∧ text.head? = some 'c' ∧ (power ↔ ['*', '*'] <:+: text))
    ⟨fun h => ⟨h.1, h.2.1, h.2.2⟩, fun h => ⟨h.chars, h.begins, h.isPower⟩⟩

/-- The text of a gate: a name, or a name that is no power with an argument. -/
inductive GateText : (power : Bool) → List Char → Prop
  | name {text : List Char} {power : Bool} : IsName power text → GateText power text
  | call {name inner within : List Char} : IsName false name → Outside inner within →
      '\n' ∉ inner → GateText false (name ++ '(' :: (inner ++ [')']))

namespace IsName

variable {power : Bool} {text : List Char}

theorem notMem (h : IsName power text) {c : Char} (foreign : isNameChar c = false) : c ∉ text :=
  notMem_of_all h.chars foreign

theorem plain (h : IsName power text) : ∀ c ∈ text, isBracket c = false := by
  have foreign : ∀ c ∈ ['(', ')', '[', ']'], isNameChar c = false := by simp [isNameChar]
  exact not_isBracket_of_free fun c bracket => h.notMem (foreign c bracket)

theorem head (h : IsName power text) : ∃ rest, text = 'c' :: rest :=
  List.head?_eq_some_iff.mp h.begins

end IsName

namespace GateText

variable {power : Bool} {text : List Char}

theorem exists_outside (h : GateText power text) : ∃ outer, Outside text outer ∧ ',' ∉ outer ∧
    (power = false → ¬ ['*', '*'] <:+: outer) := by
  cases h with
  | name isName =>
    refine ⟨text, .of_plain isName.plain, isName.notMem rfl, ?_⟩
    rintro rfl inside
    cases isName.isPower.mpr inside
  | @call name inner within isName matching =>
    refine ⟨name ++ ['(', ')'], (Outside.of_plain isName.plain).append matching.parenthesis, ?_, ?_⟩
    · simp [isName.notMem (c := ',') rfl]
    · intro _ inside
      cases isName.isPower.mpr (power_of_append inside (by decide))

theorem oneLine (h : GateText power text) : '\n' ∉ text := by
  cases h with
  | name isName => exact isName.notMem rfl
  | call isName _ oneLine => simp [isName.notMem (c := '\n') rfl, oneLine]

theorem head (h : GateText power text) : ∃ rest, text = 'c' :: rest := by
  cases h with
  | name isName => exact isName.head
  | call isName =>
    obtain ⟨rest, rfl⟩ := isName.head
    exact ⟨_, rfl⟩

end GateText

theorem notMem_writeAll (params : List Float) {c : Char} (between : c ∉ ", ".toList)
    (foreign : isAngleChar c = false) : c ∉ (Angle.writeAll "np.pi" params).toList := by
  intro h
  obtain ⟨text, isText, own⟩ := (mem_intercalate h).resolve_left between
  obtain ⟨angle, -, rfl⟩ := List.mem_map.mp isText
  exact (isAngle_write ⟨by simp, rfl⟩ angle).notMem foreign own

/-- The names of gates. Four of them are powers. -/
def names : List (String × Bool) :=
  [("cirq.X", false), ("cirq.Y", false), ("cirq.Z", false), ("cirq.H", false), ("cirq.S", false),
    ("cirq.S**-1", true), ("cirq.T", false), ("cirq.T**-1", true), ("cirq.X**0.5", true),
    ("cirq.X**-0.5", true), ("cirq.SWAP", false), ("cirq.CNOT", false), ("cirq.CZ", false),
    ("cirq.CCX", false), ("cirq.CSWAP", false), ("cirq.rx", false), ("cirq.ry", false),
    ("cirq.rz", false), ("cirq.ZPowGate", false), ("cirq.CZPowGate", false),
    ("cirq.ControlledGate", false)]

theorem isName_of_mem_names : ∀ q ∈ names, IsName q.2 q.1.toList := by decide +kernel

theorem GateText.of_name (name : String) (power : Bool) (known : (name, power) ∈ names) :
    GateText power name.toList := .name (isName_of_mem_names _ known)

/-- A gate with an argument of angles and texts around them. -/
theorem GateText.of_angles (params : List Float) (name before behind : String)
    (known : (name, false) ∈ names)
    (plain : ∀ c ∈ ['(', ')', '[', ']', '\n'], c ∉ before.toList ∧ c ∉ behind.toList) :
    GateText false
      (name ++ "(" ++ before ++ Angle.writeAll "np.pi" params ++ (behind ++ ")")).toList := by
  let inner := (before ++ Angle.writeAll "np.pi" params ++ behind).toList
  have free : ∀ c ∈ ['(', ')', '[', ']', '\n'], c ∉ inner := by
    intro c isMark
    have foreign : c ∉ ", ".toList ∧ isAngleChar c = false := by
      revert c
      simp [isAngleChar]
    simp only [inner, String.toList_append, List.mem_append, not_or]
    exact ⟨⟨(plain c isMark).1, notMem_writeAll params foreign.1 foreign.2⟩, (plain c isMark).2⟩
  have outside : Outside inner inner := .of_plain (not_isBracket_of_free fun c bracket =>
    free c (List.mem_append_left ['\n'] bracket))
  have parts : (name ++ "(" ++ before ++ Angle.writeAll "np.pi" params ++ (behind ++ ")")).toList =
      name.toList ++ '(' :: (inner ++ [')']) := by
    simp [inner]
  rw [parts]
  exact .call (isName_of_mem_names _ known) outside (free '\n' (by simp))

/-! ## What is written for an instruction -/

/-- The gate on the targets is written as a power for the operations that TensorFlow Quantum applies
as bare powers. -/
theorem gateText_target (i : Instruction) :
    GateText (Dialect.isPower .tfq i.op) (target i).1.toList := by
  obtain ⟨⟨op, wires, params, label⟩, column⟩ := i
  have named := GateText.of_name
  have turned := GateText.of_angles params
  cases op with
  | rx | crx => exact turned "cirq.rx" "" "" (by simp [names]) (by simp)
  | ry | cry => exact turned "cirq.ry" "" "" (by simp [names]) (by simp)
  | rz | crz => exact turned "cirq.rz" "" "" (by simp [names]) (by simp)
  | phase | cphase =>
    exact turned "cirq.ZPowGate" "exponent=" " / np.pi" (by simp [names]) (by simp)
  | x | cx | ccx => exact named "cirq.X" false (by simp [names])
  | y | cy => exact named "cirq.Y" false (by simp [names])
  | z | cz => exact named "cirq.Z" false (by simp [names])
  | h | ch => exact named "cirq.H" false (by simp [names])
  | s | cs => exact named "cirq.S" false (by simp [names])
  | sdg | csdg => exact named "cirq.S**-1" true (by simp [names])
  | t | ct => exact named "cirq.T" false (by simp [names])
  | tdg | ctdg => exact named "cirq.T**-1" true (by simp [names])
  | sx | csx => exact named "cirq.X**0.5" true (by simp [names])
  | sxdg => exact named "cirq.X**-0.5" true (by simp [names])
  | swap | cswap => exact named "cirq.SWAP" false (by simp [names])

theorem gateText_whole {i : Instruction} {gate : String} (whole : whole? i = some gate) :
    GateText (Dialect.isPower .cirq i.op) gate.toList := by
  obtain ⟨⟨op, wires, params, label⟩, column⟩ := i
  have named := GateText.of_name
  cases op <;> cases whole
  case cx => exact named "cirq.CNOT" false (by simp [names])
  case cz => exact named "cirq.CZ" false (by simp [names])
  case ccx => exact named "cirq.CCX" false (by simp [names])
  case cswap => exact named "cirq.CSWAP" false (by simp [names])
  case cphase =>
    exact .of_angles params "cirq.CZPowGate" "exponent=" " / np.pi" (by simp [names]) (by simp)

/-- Cirq applies bare powers where no control is added. -/
theorem isPower_cirq (i : Instruction) :
    Dialect.isPower .cirq i.op = (Dialect.isPower .tfq i.op && (target i).2 == 0) := by
  obtain ⟨⟨op, wires, params, label⟩, column⟩ := i
  cases op <;> rfl

theorem toList_applied (wires : List Nat) : (applied wires).toList = operandList wires := by
  simp [applied, operandList]

/-- What a dialect writes for an instruction: a gate and its operands, and in TensorFlow Quantum the
controls behind them. -/
inductive Written (d : Dialect) (i : Instruction) : List Char → Prop
  | plain {gate : List Char} : GateText (d.isPower i.op) gate → i.wires ≠ [] →
      Written d i (gate ++ operandList i.wires)
  | controlled {gate : List Char} {controls targets : List Nat} : d = .tfq →
      GateText (d.isPower i.op) gate → controls ++ targets = i.wires → targets ≠ [] →
        Written d i
          (gate ++ operandList targets ++ ".controlled_by".toList ++ operandList controls)

section

variable {d : Dialect} {i : Instruction} {text : List Char}

theorem targets_ne_nil (complete : i.Complete) : i.wires.drop (target i).2 ≠ [] := by
  rw [Ne, List.drop_eq_nil_iff, Nat.not_le]
  exact controls_lt_wires complete

theorem wires_ne_nil (complete : i.Complete) : i.wires ≠ [] := by
  intro none
  have some := targets_ne_nil complete
  simp [none] at some

/-- A gate that is written as a power is put into parentheses when a control is added. -/
theorem gateText_controlled (i : Instruction) :
    GateText false ("cirq.ControlledGate(" ++ (target i).1 ++ ")").toList := by
  obtain ⟨outer, outside, -⟩ := (gateText_target i).exists_outside
  have isName : IsName false "cirq.ControlledGate".toList :=
    isName_of_mem_names ("cirq.ControlledGate", false) (by simp [names])
  have parts : ("cirq.ControlledGate(" ++ (target i).1 ++ ")").toList =
      "cirq.ControlledGate".toList ++ '(' :: ((target i).1.toList ++ [')']) := by simp
  rw [parts]
  exact .call isName outside (gateText_target i).oneLine

theorem written_operation (complete : i.Complete) :
    ∃ text, operation i = .ok text ∧ Written .cirq i text.toList := by
  have enough := Nat.not_lt_of_gt (controls_lt_wires complete)
  refine ⟨_, if_neg enough, ?_⟩
  rw [String.toList_append, toList_applied]
  refine .plain ?_ (wires_ne_nil complete)
  cases whole : whole? i with
  | some gate => exact gateText_whole whole
  | none =>
    rw [isPower_cirq]
    by_cases none : (target i).2 = 0
    · have power : ((target i).2 == 0) = true := beq_iff_eq.mpr none
      rw [power, Bool.and_true]
      exact (congrArg String.toList (if_pos none)).symm ▸ gateText_target i
    · have power : ((target i).2 == 0) = false := beq_eq_false_iff_ne.mpr none
      rw [power, Bool.and_false]
      exact (congrArg String.toList (if_neg none)).symm ▸ gateText_controlled i

theorem written_tensorOperation (complete : i.Complete) :
    ∃ text, tensorOperation i = .ok text ∧ Written .tfq i text.toList := by
  have enough := Nat.not_lt_of_gt (controls_lt_wires complete)
  have some := targets_ne_nil complete
  unfold tensorOperation
  dsimp only
  rw [if_neg enough]
  split
  · next none =>
    rw [none, List.drop_zero] at some ⊢
    refine ⟨_, rfl, ?_⟩
    rw [String.toList_append, toList_applied]
    exact .plain (gateText_target i) some
  · refine ⟨_, rfl, ?_⟩
    simp only [String.toList_append, toList_applied]
    exact .controlled rfl (gateText_target i) (List.take_append_drop _ _) some

/-! ### Calls -/

theorem GateText.isWhole {gate : List Char} (h : GateText false gate) : IsWhole gate := by
  obtain ⟨rest, rfl⟩ := h.head
  obtain ⟨outer, outside, -, noPower⟩ := h.exists_outside
  exact ⟨List.cons_ne_nil _ _, outer, outside, noPower rfl⟩

/-- What is written for an instruction is a call on its wires, unless its gate is a bare power. -/
theorem Written.isCall (written : Written d i text) (whole : d.isPower i.op = false) :
    IsCall d i.wires text := by
  cases written with
  | plain gate some =>
    rw [whole] at gate
    exact .plain gate.isWhole some
  | controlled tensor gate wires some =>
    rw [whole] at gate
    exact wires ▸ .controlled tensor gate.isWhole some

theorem Written.not_isCall (written : Written d i text) (power : d.isPower i.op = true)
    (wires : List Nat) : ¬ IsCall d wires text := by
  have bare {gate : List Char} (h : GateText (d.isPower i.op) gate) (more : List Char) :
      ¬ IsCall d wires (gate ++ '(' :: more) := by
    rw [power] at h
    cases h with
    | name isName => exact not_isCall_of_power isName.plain (isName.isPower.mp rfl)
  cases written with
  | plain gate => exact bare gate _
  | controlled _ gate =>
    rw [List.append_assoc, List.append_assoc]
    exact bare gate _

example : (operation ⟨{ op := .sdg, wires := [0] }, 0⟩).toOption = some "cirq.S**-1(q[0])" := by
  decide +kernel

/-! ### Elements -/

theorem notMem_operandList {c : Char} (outer : c ∉ ['(', ')']) (between : c ∉ ", ".toList)
    (foreign : isItemChar c = false) (wires : List Nat) : c ∉ operandList wires := by
  have inside : c ∉ (", ".intercalate (registerItems wires)).toList :=
    notMem_intercalate (fun _ => isItem_of_mem_registerItems) between foreign
  simp_all [operandList, -String.toList_intercalate]

theorem exists_outside_intercalate {texts : List String}
    (each : ∀ t ∈ texts, ∃ outer, Outside t.toList outer) :
    ∃ outer, Outside (", ".intercalate texts).toList outer := by
  induction texts with
  | nil => exact ⟨[], .nil⟩
  | cons t rest ih =>
    obtain ⟨⟨outer, first⟩, others⟩ := List.forall_mem_cons.mp each
    cases rest with
    | nil => exact ⟨outer, by simpa using first⟩
    | cons u rest =>
      obtain ⟨more, behind⟩ := ih others
      have between : Outside ", ".toList ", ".toList := .of_plain (by simp [isBracket])
      rw [String.intercalate_cons_cons, String.toList_append, String.toList_append]
      exact ⟨_, (first.append between).append behind⟩

theorem outside_registerItem (wire : Nat) :
    Outside ("q[" ++ toString wire ++ "]").toList "q[]".toList := by
  have foreign : ∀ c ∈ ['(', ')', '[', ']'], isAngleChar c = false := by simp [isAngleChar]
  have digits : Outside (toString wire).toList (toString wire).toList :=
    .of_plain (not_isBracket_of_free fun c bracket =>
      (isAngle_toString wire).notMem (foreign c bracket))
  have parts : ("q[" ++ toString wire ++ "]").toList =
      'q' :: '[' :: ((toString wire).toList ++ [']']) := by simp
  rw [parts]
  exact .char rfl (.group (by simp) digits .nil)

theorem outside_operandList (wires : List Nat) : Outside (operandList wires) ['(', ')'] := by
  have each : ∀ t ∈ registerItems wires, ∃ outer, Outside t.toList outer := fun t isItem => by
    obtain ⟨wire, -, rfl⟩ := List.mem_map.mp isItem
    exact ⟨_, outside_registerItem wire⟩
  obtain ⟨outer, inside⟩ := exists_outside_intercalate each
  exact inside.parenthesis

theorem Written.isElementText (written : Written d i text) : IsElementText text := by
  have operands := outside_operandList
  cases written with
  | plain gate =>
    obtain ⟨outer, outside, free, -⟩ := gate.exists_outside
    obtain ⟨rest, rfl⟩ := gate.head
    exact ⟨⟨_, outside.append (operands _), by simp [free]⟩, 'c', _, rfl, by decide⟩
  | controlled _ gate =>
    obtain ⟨outer, outside, free, -⟩ := gate.exists_outside
    obtain ⟨rest, rfl⟩ := gate.head
    have between : Outside ".controlled_by".toList ".controlled_by".toList :=
      .of_plain (by simp [isBracket])
    exact ⟨⟨_, ((outside.append (operands _)).append between).append (operands _), by simp [free]⟩,
      'c', _, rfl, by decide⟩

theorem Written.oneLine (written : Written d i text) : '\n' ∉ text := by
  have operands := notMem_operandList (c := '\n') (by decide) (by decide) rfl
  cases written with
  | plain gate => simp [gate.oneLine, operands]
  | controlled _ gate => simp [gate.oneLine, operands]

end

end Cirq

end CircuitGrid
