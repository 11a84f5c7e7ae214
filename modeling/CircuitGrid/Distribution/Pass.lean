import CircuitGrid.Distribution.Check

/-!
# Passes

Circuits are distributed in passes, which share what they find out: partition the wires unless a
partition is given, link the blocks, and check the outcome. Passes stop at the first failure, and
what was done before it stays.

* `Properties`, `State`: what passes share, and what they work on;
* `Pass`, `Pass.isDue`, `Pass.runIn`, `Pass.runAllIn`: the passes, which run in a memory;
* `DistributionError`: why a pass fails;
* `Circuit.distributeIn`, `Circuit.distribute`: all passes on a circuit, in a memory and without
  limits.
-/

namespace CircuitGrid

/-- Why a pass fails. -/
inductive DistributionError where
  /-- A placeholder cannot be put in its place. -/
  | circuit (error : CircuitError)
  /-- Blocks are to be linked before there are any. -/
  | noPartition
  /-- The outcome has a fault. -/
  | rejected (fault : CheckFault)
deriving Repr, DecidableEq

/-- A value of some kind that passes may leave for one another. -/
inductive Note where
  | number (n : Nat)
  | text (s : String)
  | checked (counts : Checked)
deriving Repr, DecidableEq

/-- What passes share: the requested number of blocks, the partition, the report on what was linked,
and one note of each kind. -/
structure Properties where
  requested : Option Nat := none
  partition : Option Partition := none
  report : Option Report := none
  number : Option Nat := none
  text : Option String := none
  checked : Option Checked := none
deriving Repr, DecidableEq

/-- Leaves a note in place of the one of its kind. -/
def Properties.insert (p : Properties) : Note → Properties
  | .number n => { p with number := some n }
  | .text s => { p with text := some s }
  | .checked counts => { p with checked := some counts }

/-- A circuit with what is known about it. -/
structure State where
  circuit : Circuit
  properties : Properties := {}

/-- A pass over a circuit. -/
inductive Pass where
  /-- Cuts the wires into blocks. -/
  | partition
  /-- Replaces the gates between blocks. -/
  | link
  /-- Checks the outcome. -/
  | check
deriving Repr, DecidableEq

namespace Pass

/-- Every pass, in order. -/
def all : List Pass := [partition, link, check]

/-- The name of a pass. -/
def name : Pass → String
  | partition => "GreedyPartition"
  | link => "CrossPartitionRewrite"
  | check => "DocumentValidation"

/-- The pass with a given name. -/
def ofName? (name : String) : Option Pass := all.find? (·.name == name)

/-- The name of a pass leads back to it. -/
theorem ofName?_name (pass : Pass) : ofName? pass.name = some pass := by cases pass <;> decide

end Pass

namespace DistributionError

/-- The wording of an error. -/
def message : DistributionError → String
  | circuit error => s!"IR error: {error.message}"
  | noPartition => "Missing partition map in property set"
  | rejected fault => s!"Pass '{Pass.check.name}' failed: {fault.message}"

end DistributionError

namespace Pass

/-- Whether a pass has something to do: a given partition is kept. -/
def isDue (pass : Pass) (s : State) : Bool :=
  match pass with
  | partition => s.properties.partition.isNone
  | link | check => true

/-- Runs a pass in a memory. Without a request there is one block. -/
def runIn (m : Memory) (pass : Pass) (s : State) : Except (Stop DistributionError) State :=
  match pass with
  | partition =>
    match Partition.ofCircuit? m s.circuit (s.properties.requested.getD 1) with
    | none => .error .panic
    | some found => .ok { s with properties := { s.properties with partition := some found } }
  | link =>
    match s.properties.partition with
    | none => .error (.fault .noPartition)
    | some p =>
      match s.circuit.link p with
      | .error stop => .error (stop.map .circuit)
      | .ok (linked, report) =>
        .ok { circuit := linked, properties := { s.properties with report := some report } }
  | check =>
    match s.circuit.checkLinks s.properties.partition s.properties.report with
    | .error stop => .error (stop.map .rejected)
    | .ok counts => .ok { s with properties := s.properties.insert (.checked counts) }

/-- Runs a pass. -/
abbrev run (pass : Pass) (s : State) : Except (Stop DistributionError) State :=
  pass.runIn .unlimited s

/-- Runs the passes that are due, one after the other, up to the first failure. -/
def runAllIn (m : Memory) : List Pass → State → State × Except (Stop DistributionError) Unit
  | [], s => (s, .ok ())
  | pass :: rest, s =>
    if pass.isDue s then
      match pass.runIn m s with
      | .error stop => (s, .error stop)
      | .ok after => runAllIn m rest after
    else runAllIn m rest s

/-- Runs the passes that are due without limits. -/
abbrev runAll (passes : List Pass) (s : State) : State × Except (Stop DistributionError) Unit :=
  runAllIn .unlimited passes s

/-- The passes that distribute a circuit, with or without the check at the end. -/
def distributing (checking : Bool) : List Pass :=
  if checking then [partition, link, check] else [partition, link]

end Pass

/-- A distributed circuit, the partition of its wires, and what was replaced. -/
structure Distribution where
  circuit : Circuit
  partition : Partition
  report : Report

/-- Distributes a circuit over the requested number of blocks and checks the outcome, in a
memory. -/
def Circuit.distributeIn (m : Memory) (c : Circuit) (requested : Nat) :
    Except (Stop DistributionError) Distribution :=
  match Pass.runAllIn m (Pass.distributing true) ⟨c, { requested := some requested }⟩ with
  | (_, .error stop) => .error stop
  | (s, .ok ()) =>
    match s.properties.partition, s.properties.report with
    | some partition, some report => .ok ⟨s.circuit, partition, report⟩
    | _, _ => .error (.fault .noPartition)

/-- Distributes a circuit over the requested number of blocks and checks the outcome. -/
abbrev Circuit.distribute (c : Circuit) (requested : Nat) :
    Except (Stop DistributionError) Distribution :=
  c.distributeIn .unlimited requested

end CircuitGrid
