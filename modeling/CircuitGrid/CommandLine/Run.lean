import CircuitGrid.CommandLine.Task
import CircuitGrid.Distribution.Text
import CircuitGrid.Json.Sorted

/-!
# Running a command line

* `emitTask`, `distributeTask`, `partitionTask`: the commands that work on a circuit;
* `Outcome`: what was printed, and how a run ends;
* `runCommandLine`: running a command line on a host.
-/

namespace CircuitGrid

variable {m : Type → Type} [Monad m]

/-- The text filled with blanks up to a width. -/
def padded (width : Nat) (s : String) : String := s.pushn ' ' (width - s.length)

/-- The last remarks of a command: that it is done, and where its result is. -/
def finish (what : String) (output : Option String) : Task m Unit := do
  Task.remark s!"✓ {what} complete"
  match output with
  | none => pure ()
  | some path => Task.remark s!"  Output: {path}"

/-- Writes the program of a circuit in a dialect. -/
def emitTask (memory : Memory) (host : Host m) (input name : String) (output : Option String) :
    Task m Unit := do
  let dialect ← Task.dialect name
  Task.remark s!"→ Exporting {input} as {dialect.name}"
  let circuit ← Task.load memory host input
  Task.remark s!"  Loaded: {circuit.wires} wires, {circuit.columns.length} columns"
  let program ← Task.ofExcept .lowering circuit.lower
  Task.remark
    s!"  Lowered: {program.instructions.length} instructions in {program.countColumns} columns"
  let text ← Task.ofRun .emission (dialect.emit program)
  Task.deliver host output text
  finish "Export" output

/-- Remarks on a distribution: the sizes of the blocks, and what was replaced. -/
def remarkOn (wires : Nat) (s : State) : Task m Unit := do
  match s.properties.partition.bind Partition.sizes? with
  | none => pure ()
  | some sizes =>
    let listed := ", ".intercalate (sizes.map toString)
    Task.remark s!"  Partition sizes: [{listed}]"
  match s.properties.report with
  | none => pure ()
  | some report =>
    Task.remark s!"  Rewrote {report.sites.length} gates, {wires} → {s.circuit.wires} wires"
    report.links.forM fun link =>
      Task.remark s!"    link {link.pair.name}: ancillas q{link.first} and q{link.second}"

/-- Distributes a circuit, and writes it or its program in a dialect. -/
def distributeTask (memory : Memory) (host : Host m) (input : String) (blocks : Nat)
    (output name : Option String) (checking : Bool) : Task m Unit := do
  let dialect ← name.mapM Task.dialect
  Task.remark s!"→ Distributing {input} over {blocks} partitions"
  let circuit ← Task.load memory host input
  let passes := Pass.distributing checking
  Task.remark s!"  Running {passes.length} passes"
  let (s, result) := Pass.runAllIn memory passes ⟨circuit, { requested := some blocks }⟩
  Task.ofRun .distribution result
  remarkOn circuit.wires s
  let text ← match dialect with
    | some dialect => do
      let program ← Task.ofExcept .lowering s.circuit.lower
      Task.ofRun .emission (dialect.emit program)
    | none => Task.ofExcept .undescribed s.circuit.toIndentedText
  Task.deliver host output text
  finish "Distribution" output

/-- The blocks of a partition and the sites between them as JSON. -/
def partitionJson (circuit : Circuit) (p : Partition) (sites : List Site) : Json :=
  Json.sorted <| .object [("num_wires", .nat circuit.wires), ("num_partitions", .nat p.count),
    ("assignment", .list (p.assignment.map .nat)),
    ("sizes", .list ((p.sizes?.getD []).map .nat)),
    ("cross_partition_sites", .list (sites.map Site.toJson))]

/-- A line of the table of blocks. -/
def blockLine (p : Partition) (block : Nat) : String :=
  let (first, past) := p.range block
  let span := if first < past then s!"{first}..={past - 1}" else "-"
  "  " ++ padded 10 (toString block) ++ " " ++ padded 12 span ++ s!" {past - first}"

/-- A line of the list of sites. -/
def siteLine (s : Site) : String :=
  "  column " ++ padded 4 (toString s.column) ++
    s!" {s.kind.name} q{s.source} → q{s.target}  (partitions {s.pair.name})"

/-- The blocks of a partition and the sites between them as a table. -/
def partitionLines (circuit : Circuit) (p : Partition) (sites : List Site) : List String :=
  [s!"→ {circuit.wires} wires in {p.count} partitions", "",
    "  " ++ padded 10 "Partition" ++ " " ++ padded 12 "Wires" ++ " Size"] ++
  (List.range p.count).map (blockLine p) ++ [""] ++
  (if sites.isEmpty then ["✓ No cross-partition gates"]
    else s!"! {sites.length} cross-partition gates:" :: sites.map siteLine)

/-- Shows how a circuit would be distributed. -/
def partitionTask (memory : Memory) (host : Host m) (input : String) (blocks : Nat)
    (asJson : Bool) : Task m Unit := do
  let circuit ← Task.load memory host input
  match Partition.ofCircuit? memory circuit blocks with
  | none => throw .panic
  | some p =>
    let sites := circuit.sites p
    if asJson then Task.print ((partitionJson circuit p sites).pretty ++ "\n")
    else Task.print (unlines (partitionLines circuit p sites))

/-- The list of dialects. -/
def dialectLines : List String :=
  "Output dialects:" :: Dialect.all.map fun d =>
    "  " ++ padded 8 d.name ++ " " ++ padded 34 d.description ++ " ." ++ d.extension

/-- The number of the version. -/
def versionNumber : String := "0.4.1"

/-- The description of the program. -/
def aboutLines : List String := [
  s!"qsplit v{versionNumber} - circuit lowering and partition rewriting",
  "",
  "Components:",
  "  qsplit-ir       Circuit documents, gate catalog, instruction stream",
  "  qsplit-compile  Lowering, partitioning, cross-partition rewriting",
  "  qsplit-emit     Dialect emitters",
  "  qsplit-cli      Command-line interface",
  "",
  "Repository: https://github.com/qsplit/qsplit",
  "License:    Apache-2.0"]

/-- How the program is called. -/
def usageLines : List String := [
  "Usage: qsplit [OPTIONS] <COMMAND>",
  "",
  "Commands: " ++ ", ".intercalate Command.names]

/-- Runs a command in a memory. -/
def Command.task (memory : Memory) (host : Host m) : Command → Task m Unit
  | emit input dialect output => emitTask memory host input dialect output
  | distribute input blocks output dialect checking =>
    distributeTask memory host input blocks output dialect checking
  | partition input blocks asJson => partitionTask memory host input blocks asJson
  | dialects => Task.print (unlines dialectLines)
  | about => Task.print (unlines aboutLines)

/-- What was printed, and the code with which a run ends: 0 when it succeeds, 1 when it fails, 2
when the command line is not understood, 101 when it panics. -/
structure Outcome where
  code : Nat
  printed : Printed
deriving Repr, DecidableEq

/-- Runs a task to its end. -/
def Task.outcome (task : Task m Unit) : m Outcome := do
  match ← (ExceptT.run task).run {} with
  | (.ok (), printed) => return ⟨0, printed⟩
  | (.error (.fault error), printed) =>
    return ⟨1, { printed with remarks := printed.remarks ++ s!"Error: {error.message}\n" }⟩
  | (.error .panic, printed) => return ⟨101, printed⟩

/-- Runs a command line in a memory. -/
def runCommandLine (memory : Memory) (host : Host m) (settings : Settings) (args : List String) :
    m Outcome :=
  match Invocation.parse settings args with
  | none => return ⟨2, { remarks := unlines usageLines }⟩
  | some .help => return ⟨0, { results := unlines usageLines }⟩
  | some .version => return ⟨0, { results := s!"qsplit {versionNumber}\n" }⟩
  | some (.command command) => (command.task memory host).outcome

end CircuitGrid
