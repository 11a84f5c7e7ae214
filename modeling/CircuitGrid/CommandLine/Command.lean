import CircuitGrid.CommandLine.Options

/-!
# Commands

A command line names one of five commands and its options. Some options fall back to settings of the
surroundings, and then to a default.

* `Command`: what is to be done;
* `Invocation.parse`: what a command line asks for.
-/

namespace CircuitGrid

/-- What is to be done. Dialects are named as they were given. -/
inductive Command where
  /-- Write the program of a circuit in a dialect. -/
  | emit (input dialect : String) (output : Option String)
  /-- Distribute a circuit, and write it or its program in a dialect. -/
  | distribute (input : String) (blocks : Nat) (output dialect : Option String) (checking : Bool)
  /-- Show how a circuit would be distributed. -/
  | partition (input : String) (blocks : Nat) (asJson : Bool)
  /-- List the dialects. -/
  | dialects
  /-- Describe the program. -/
  | about
deriving Repr, DecidableEq

/-- What a command line asks for. -/
inductive Invocation where
  | command (command : Command)
  | help
  | version
deriving Repr, DecidableEq

/-- What the surroundings set in place of options. -/
structure Settings where
  dialect : Option String := none
  blocks : Option String := none
deriving Repr, DecidableEq

namespace Flag

def input : Flag := ⟨"input", some 'i', .text⟩
def format : Flag := ⟨"format", some 'f', .text⟩
def output : Flag := ⟨"output", some 'o', .text⟩
def partitions : Flag := ⟨"partitions", some 'n', .number⟩
def dialect : Flag := ⟨"emit", none, .text⟩
def unchecked : Flag := ⟨"no-validate", none, .switch⟩
def json : Flag := ⟨"json", none, .switch⟩
def verbose : Flag := ⟨"verbose", some 'v', .counter⟩
def help : Flag := ⟨"help", some 'h', .switch⟩
def version : Flag := ⟨"version", some 'V', .switch⟩

end Flag

/-- The value of an option. -/
def Given.value? (given : Given) (flag : Flag) : Option String := given.lookup flag.long

namespace Command

/-- The names of the commands. -/
def names : List String := ["export", "distribute", "partition", "dialects", "version"]

/-- The requested number of blocks. -/
def blocksOf (settings : Settings) (given : Given) : Option Nat :=
  readCount (((given.value? .partitions).or settings.blocks).getD "2")

/-- The options of a command besides those that all commands have. -/
def flags (name : String) : List Flag :=
  match name with
  | "export" => [.input, .format, .output]
  | "distribute" => [.input, .partitions, .output, .dialect, .unchecked]
  | "partition" => [.input, .partitions, .json]
  | _ => []

/-- The command with the given name and options. -/
def ofGiven (settings : Settings) (name : String) (given : Given) : Option Command :=
  match name with
  | "export" => do
    let dialect := ((given.value? .format).or settings.dialect).getD "qasm2"
    return .emit (← given.value? .input) dialect (given.value? .output)
  | "distribute" => do
    return .distribute (← given.value? .input) (← blocksOf settings given) (given.value? .output)
      (given.value? .dialect) (!given.has .unchecked)
  | "partition" => do
    return .partition (← given.value? .input) (← blocksOf settings given) (given.has .json)
  | "dialects" => some .dialects
  | "version" => some .about
  | _ => none

end Command

namespace Invocation

/-- What the words behind the name of a command ask for. -/
def ofCommand (settings : Settings) (name : String) (rest : List String) : Option Invocation :=
  if Command.names.contains name then
    match scan (Command.flags name ++ [.verbose, .help]) [] rest with
    | some .help => some .help
    | some (.words given []) => (Command.ofGiven settings name given).map .command
    | _ => none
  else if name = "help" then
    match rest with
    | [] => some .help
    | [topic] => if ("help" :: Command.names).contains topic then some .help else none
    | _ => none
  else none

/-- What a command line asks for. No result means that it is not understood. -/
def parse (settings : Settings) (args : List String) : Option Invocation :=
  match scan [.verbose, .help, .version] [] args with
  | some .help => some .help
  | some .version => some .version
  | some (.words _ (name :: rest)) => ofCommand settings name rest
  | _ => none

end Invocation

end CircuitGrid
