import CircuitGrid.CommandLine.Command
import CircuitGrid.Description.Text
import CircuitGrid.Dialect.Emit
import CircuitGrid.Distribution.Pass
import CircuitGrid.Lowering

/-!
# Commands at work

A command reads and writes files through its host, prints to two places, and may fail or panic. What
was printed before that stays printed.

* `Host`: where files are;
* `CommandError`: why a command fails;
* `Task`: a command at work.
-/

namespace CircuitGrid

/-- What a path leads to. -/
inductive Source where
  | missing
  | unreadable (reason : String)
  | text (s : String)
deriving Repr, DecidableEq

/-- Where files are read and written. -/
structure Host (m : Type → Type) where
  read : String → m Source
  /-- Writes a text to a path; the result is the reason if that fails. -/
  write : String → String → m (Option String)

/-- The wording of what can be wrong with a text. -/
def Fault.message : Fault → String
  | .truncated => "the text ends too early"
  | .malformed => "the text is not JSON"
  | .mismatched => "the text does not describe a circuit"

/-- The wording of why no circuit can be read from a text. -/
def TextError.message : TextError → String
  | .json fault => s!"JSON error: {fault.message}"
  | .circuit error => error.message

/-- Why a command fails. -/
inductive CommandError where
  | missing (path : String)
  | unreadable (path reason : String)
  | invalid (path : String) (error : TextError)
  | unknownDialect (name : String)
  | lowering (error : LoweringError)
  | distribution (error : DistributionError)
  | emission (error : EmitError)
  /-- The circuit has no description. -/
  | undescribed (error : CircuitError)
  | unwritable (path reason : String)
deriving Repr, DecidableEq

/-- The names of all dialects. -/
def dialectNames : String := ", ".intercalate (Dialect.all.map Dialect.name)

/-- The wording of an error, followed by what caused it. -/
def CommandError.message : CommandError → String
  | missing path => s!"File not found: {path}"
  | unreadable path reason => s!"Failed to read file: {path}: {reason}"
  | invalid path error => s!"Invalid document: {path}: {error.message}"
  | unknownDialect name =>
    s!"Available dialects: {dialectNames}: " ++ (EmitError.unknownDialect name).message
  | lowering error => error.message
  | distribution error =>
    match error with
    | .circuit cause => s!"{error.message}: {cause.message}"
    | _ => error.message
  | emission error => error.message
  | undescribed error => error.message
  | unwritable path reason => s!"Failed to write file: {path}: {reason}"

/-- What has been printed: results, and remarks on progress. -/
structure Printed where
  results : String := ""
  remarks : String := ""
deriving Repr, DecidableEq

/-- A command at work. -/
abbrev Task (m : Type → Type) (α : Type) : Type :=
  ExceptT (Stop CommandError) (StateT Printed m) α

namespace Task

variable {m : Type → Type} [Monad m] {α : Type}

/-- Prints a result. -/
def print (s : String) : Task m Unit := modify fun p => { p with results := p.results ++ s }

/-- Prints a line on progress. -/
def remark (line : String) : Task m Unit :=
  modify fun p => { p with remarks := p.remarks ++ line ++ "\n" }

/-- Fails with an error. -/
def fail (error : CommandError) : Task m α := throw (.fault error)

/-- Takes the value of a result, or fails with its error. -/
def ofExcept {ε : Type} (wrap : ε → CommandError) : Except ε α → Task m α
  | .ok value => pure value
  | .error error => fail (wrap error)

/-- Takes the value of a result, fails with its fault, or panics. -/
def ofRun {ε : Type} (wrap : ε → CommandError) : Except (Stop ε) α → Task m α
  | .ok value => pure value
  | .error stop => throw (stop.map wrap)

/-- The dialect with a given name. -/
def dialect (name : String) : Task m Dialect :=
  match Dialect.ofName? name with
  | some found => pure found
  | none => fail (.unknownDialect name)

/-- Reads the circuit in a file, in a memory. -/
def load (memory : Memory) (host : Host m) (path : String) : Task m Circuit := do
  match ← (host.read path : m Source) with
  | .missing => fail (.missing path)
  | .unreadable reason => fail (.unreadable path reason)
  | .text source => ofRun (.invalid path) (Circuit.ofTextIn memory source)

/-- Writes a text to a file, or prints it if there is none. -/
def deliver (host : Host m) (output : Option String) (content : String) : Task m Unit :=
  match output with
  | none => print content
  | some path => do
    match ← (host.write path content : m (Option String)) with
    | none => pure ()
    | some reason => fail (.unwritable path reason)

end Task

end CircuitGrid
