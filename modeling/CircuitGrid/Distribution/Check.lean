import CircuitGrid.Circuit.Validity
import CircuitGrid.Distribution.Basic

/-!
# Checking distributed circuits

A distributed circuit is well formed, its placeholders carry the unitary of their kind and end on
two different wires, their links are two different link wires, and no other gate touches a link
wire. Placeholders for the sites of a report use the link of their pair.

* `CheckFault`: what can be wrong, one constructor per cause;
* `Circuit.linkWires`: the wires that are set apart for links;
* `Circuit.checkLinks`: the first fault of a circuit, or what was checked.
-/

namespace CircuitGrid

/-- What can be wrong with a distributed circuit. -/
inductive CheckFault where
  | malformed (error : CircuitError)
  | sameEndpoints (gate : String)
  | sameLink (gate : String)
  | wrongUnitary (gate : String) (kind : Entangler)
  /-- A placeholder is linked through wires that are not set apart for links. -/
  | notLinkWires (gate : String) (link : Nat × Nat)
  /-- A placeholder is linked through other wires than those of its pair. -/
  | otherLink (gate : String) (link : Nat × Nat) (pair : BlockPair)
  /-- A gate covers a wire that is set apart for links. -/
  | touchesLink (gate : String) (column wire : Nat)
deriving Repr, DecidableEq

namespace CheckFault

/-- The wording of a fault. -/
def message : CheckFault → String
  | malformed error => error.message
  | sameEndpoints gate => s!"placeholder '{gate}' has identical endpoints"
  | sameLink gate => s!"placeholder '{gate}' has identical link wires"
  | wrongUnitary gate kind => s!"placeholder '{gate}' does not carry the {kind.op.name} unitary"
  | notLinkWires gate (first, second) =>
    s!"placeholder '{gate}' links q{first} and q{second}, which are not ancilla wires"
  | otherLink gate (first, second) pair =>
    s!"placeholder '{gate}' links q{first} and q{second}, " ++
      s!"which the rewrite did not allocate for {pair.name}"
  | touchesLink gate column wire =>
    s!"gate '{gate}' at column {column} touches ancilla wire {wire}"

end CheckFault

/-- How many gates were checked, and how many of them are placeholders. -/
structure Checked where
  gates : Nat
  placeholders : Nat
deriving Repr, DecidableEq

/-- The site of a report that a placeholder in a column stands for. -/
def Report.siteOf? (r : Report) (column : Nat) (p : Placeholder) : Option Site :=
  r.sites.find? fun s => s.column = column && s.source = p.source && s.target = p.target

/-- A wire is set apart for links when it lies in the given range. -/
def isLinkWire (links : Nat × Nat) (wire : Nat) : Bool := links.1 ≤ wire && wire < links.2

/-- Whether a placeholder uses the link of its pair, if the report knows its site. -/
def checkAllocation (gate : String) (column : Nat) (p : Placeholder) (r : Report) :
    Except CheckFault Unit :=
  match r.siteOf? column p with
  | none => .ok ()
  | some s =>
    if (r.linkFor? s.pair).any fun l => (l.first, l.second) = p.link then .ok ()
    else .error (.otherLink gate p.link s.pair)

/-- Checks a placeholder in a column. -/
def checkPlaceholder (links : Nat × Nat) (report : Option Report) (column : Nat) (gate : Gate)
    (p : Placeholder) : Except CheckFault Unit :=
  if p.source = p.target then .error (.sameEndpoints gate.id)
  else if p.link.1 = p.link.2 then .error (.sameLink gate.id)
  else if !gate.matrix.any (·.approximates p.kind.matrix) then
    .error (.wrongUnitary gate.id p.kind)
  else if !isLinkWire links p.link.1 || !isLinkWire links p.link.2 then
    .error (.notLinkWires gate.id p.link)
  else
    match report with
    | none => .ok ()
    | some r => checkAllocation gate.id column p r

/-- Checks a gate in a column and counts it. -/
def checkPlacement (links : Nat × Nat) (report : Option Report) (done : Checked)
    (column row : Nat) (gate : Gate) : Except CheckFault Checked :=
  match gate.placeholder? with
  | some p => do
    checkPlaceholder links report column gate p
    return ⟨done.gates + 1, done.placeholders + 1⟩
  | none =>
    match (gate.rowsAt row).find? (isLinkWire links) with
    | some wire => .error (.touchesLink gate.id column wire)
    | none => .ok ⟨done.gates + 1, done.placeholders⟩

/-- Checks placed gates in order and counts them. -/
def checkPlacements (links : Nat × Nat) (report : Option Report) :
    Checked → List (Nat × Nat × Gate) → Except CheckFault Checked
  | done, [] => .ok done
  | done, (column, row, gate) :: rest => do
    checkPlacements links report (← checkPlacement links report done column row gate) rest

namespace Circuit

/-- The wires set apart for links: all from the given one on, or else from the first one that a
placeholder names. -/
def linkWires (c : Circuit) (partition : Option Partition) : Nat × Nat :=
  let first := match partition with
    | some p => p.wires
    | none => c.dataWires
  (min first c.wires, c.wires)

/-- Checks a circuit against the partition and the report that are known. -/
def checkLinks (c : Circuit) (partition : Option Partition) (report : Option Report) :
    Except (Stop CheckFault) Checked :=
  match c.validate with
  | .error stop => .error (stop.map .malformed)
  | .ok () =>
    (checkPlacements (c.linkWires partition) report ⟨0, 0⟩ c.placements).mapError .fault

end Circuit

end CircuitGrid
