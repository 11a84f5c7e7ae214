import CircuitGrid.Machine
import CircuitGrid.Program.Basic

/-!
# Output dialects

The formats in which a program can be written, with their names and the operations they know.

* `Dialect`: the dialects, `Dialect.all` lists them in order;
* `Dialect.ofName?`: the dialect with a given name, in any case;
* `Dialect.supports`: whether a dialect can express an operation;
* `EmitError`: why a program cannot be written.
-/

namespace CircuitGrid

/-- A format in which programs are written. -/
inductive Dialect where
  | qasm2 | qasm3 | qiskit | quil | pyquil | cirq | tfq | quest | qsharp | braket | qobj
deriving Repr, DecidableEq

namespace Dialect

/-- Every dialect, in order. -/
def all : List Dialect :=
  [qasm2, qasm3, qiskit, quil, pyquil, cirq, tfq, quest, qsharp, braket, qobj]

/-- The name of a dialect. -/
def name : Dialect → String
  | qasm2 => "qasm2" | qasm3 => "qasm3" | qiskit => "qiskit" | quil => "quil"
  | pyquil => "pyquil" | cirq => "cirq" | tfq => "tfq" | quest => "quest" | qsharp => "qsharp"
  | braket => "braket" | qobj => "qobj"

/-- The usual ending of file names. -/
def extension : Dialect → String
  | qasm2 | qasm3 => "qasm"
  | qiskit | pyquil | cirq | tfq | braket => "py"
  | quil => "quil"
  | quest => "c"
  | qsharp => "qs"
  | qobj => "json"

/-- What a dialect is, in one line. -/
def description : Dialect → String
  | qasm2 => "OpenQASM 2.0 (qelib1.inc)"
  | qasm3 => "OpenQASM 3 (stdgates.inc)"
  | qiskit => "Qiskit Python script"
  | quil => "Quil program"
  | pyquil => "pyQuil Python script"
  | cirq => "Cirq Python script"
  | tfq => "TensorFlow Quantum Python script"
  | quest => "QuEST C program"
  | qsharp => "Q# operation"
  | braket => "Amazon Braket Python script"
  | qobj => "Qobj experiment (JSON)"

/-- Other names of dialects, in lower case. -/
def aliases : List (String × Dialect) :=
  [("qasm", qasm2), ("qasm2.0", qasm2), ("openqasm2", qasm2), ("openqasm3", qasm3),
    ("tensorflow-quantum", tfq), ("q#", qsharp)]

/-- The lower case of a character as far as names of dialects can tell: besides the capital letters
only the Kelvin sign has a lower case among the letters that they use. -/
def lowerCase (c : Char) : Char := if c = '\u212a' then 'k' else c.toLower

/-- The dialect with a given name, in any case. -/
def ofName? (name : String) : Option Dialect :=
  (all.map (fun d => (d.name, d)) ++ aliases).lookup (name.map lowerCase)

/-- The name of a dialect leads back to it. -/
theorem ofName?_name (d : Dialect) : ofName? d.name = some d := by cases d <;> decide +kernel

/-- Whether a dialect can express an operation. -/
def supports : Dialect → Op → Bool
  | quil, .sx | quil, .sxdg | quil, .csx => false
  | pyquil, .sx | pyquil, .sxdg | pyquil, .csx => false
  | qsharp, .sx | qsharp, .sxdg | qsharp, .csx => false
  | quest, .sx | quest, .sxdg | quest, .csx | quest, .ch | quest, .cswap => false
  | braket, .ch | braket, .csx | braket, .crx | braket, .cry | braket, .crz => false
  | _, _ => true

end Dialect

/-- Why a program cannot be written in a dialect. -/
inductive EmitError where
  | unsupported (dialect : Dialect) (op : Op)
  | unknownDialect (name : String)
deriving Repr, DecidableEq

namespace EmitError

/-- The wording of an error. -/
def message : EmitError → String
  | unsupported dialect op => s!"{dialect.name} cannot express '{op.name}'"
  | unknownDialect name => s!"Unknown dialect: {name}"

end EmitError

/-! ## Lines of text -/

/-- Lines as a text in which every line is ended. -/
def unlines (lines : List String) : String := String.join (lines.map (· ++ "\n"))

/-- The label of an instruction as a comment line behind a mark. -/
def Instruction.commentLines (mark : String) (i : Instruction) : List String :=
  match i.label with
  | none => []
  | some label => [mark ++ label]

/-- The lines of all instructions in order. -/
def instructionLines (write : Instruction → Except (Stop EmitError) (List String)) :
    List Instruction → Except (Stop EmitError) (List String)
  | [] => .ok []
  | i :: rest => do
    let lines ← write i
    return lines ++ (← instructionLines write rest)

/-- The numbers of wires as texts. -/
def wireNumbers (wires : List Nat) : List String := wires.map toString

/-- The elements of the register `q` for wires. -/
def registerItems (wires : List Nat) : List String := wires.map fun wire => s!"q[{wire}]"

end CircuitGrid
