import CircuitGrid.Circuit.Edit
import CircuitGrid.Partition.Basic

/-!
# Distributing circuits

A two-wire gate whose wires lie in different blocks is replaced by a placeholder with the same
unitary. Two shapes are recognised: a gate of two rows that is known to be a controlled NOT or a
phase flip, in a column without controls, and a column that holds nothing but one control and a
plain X or Z. Every pair of blocks that needs it gets a link of two wires, appended below all
others.

* `Circuit.sites`: the gates to be replaced;
* `Site`, `Link`, `Report`: what is replaced, with which wires;
* `Circuit.link`: the circuit with placeholders in place of the sites, and the report.
-/

namespace CircuitGrid

/-- A gate between two blocks. -/
structure Site where
  column : Nat
  kind : Entangler
  source : Nat
  target : Nat
  pair : BlockPair
  /-- The rows of the cells that make up the gate. -/
  rows : List Nat
deriving Repr, DecidableEq

/-- The two wires that are reserved for a pair of blocks. -/
structure Link where
  pair : BlockPair
  first : Nat
  second : Nat
deriving Repr, DecidableEq

/-- What was replaced: the number of wires before, the links by their pairs, and the sites by their
columns. -/
structure Report where
  wires : Nat
  links : List Link
  sites : List Site
deriving Repr, DecidableEq

namespace Site

/-- The upper wire of a site. -/
def top (s : Site) : Nat := min s.source s.target

/-- The placeholder for a site. -/
def placeholder (s : Site) (link : Link) : Gate :=
  .nonLocal s!"{s.kind.idStart}{s.column}_{s.top}"
    { kind := s.kind, source := s.source, target := s.target, link := (link.first, link.second) }

end Site

namespace Report

/-- The number of wires that were appended. -/
def appended (r : Report) : Nat := r.links.length * 2

/-- The link for a pair of blocks. -/
def linkFor? (r : Report) (pair : BlockPair) : Option Link := r.links.find? (·.pair = pair)

end Report

/-! ## Recognising sites -/

/-- The site of a recognised gate between two wires, if they lie in different blocks. -/
def siteAt (p : Partition) (column : Nat) (kind : Entangler) (source target : Nat)
    (rows : List Nat) : Option Site :=
  (p.crossing source target).map fun pair => { column, kind, source, target, pair, rows }

/-- What a gate of two rows is known to be. -/
def Gate.tallEntangler? (g : Gate) : Option Entangler :=
  match g.role with
  | .unitary => if g.height = 2 then g.entangler else none
  | _ => none

/-- What a gate becomes under a control. -/
def Gate.controlledEntangler? (g : Gate) : Option Entangler :=
  if g.isPlain .x then some .cx else if g.isPlain .z then some .cz else none

/-- The sites of a column. -/
def Column.sites (p : Partition) (index : Nat) (column : Column Gate) : List Site :=
  let placed := Column.placed column
  let acting := placed.filter fun (_, gate) => !gate.hasNoEffect
  match placed.filter fun (_, gate) => gate.isControl, acting with
  | [], _ =>
    acting.filterMap fun (row, gate) => do
      siteAt p index (← gate.tallEntangler?) row (row + 1) [row, row + 1]
  | [(control, gate)], [(target, payload)] =>
    if gate.controlBit = some true then
      (payload.controlledEntangler?.bind fun kind =>
        siteAt p index kind control target [control, target]).toList
    else []
  | _, _ => []

namespace Circuit

/-- The gates between two blocks, column by column. -/
def sites (c : Circuit) (p : Partition) : List Site :=
  c.columns.zipIdx.flatMap fun (column, index) => Column.sites p index column

/-! ## Replacing sites -/

/-- Takes the cells of a site out of a circuit. -/
def clearSite (c : Circuit) (s : Site) : Circuit :=
  s.rows.foldl (fun c row => (c.clear s.column row).2) c

/-- Puts the placeholder of a site in its place. -/
def replaceSite (c : Circuit) (s : Site) (link : Link) : Except (Stop CircuitError) Circuit :=
  (c.clearSite s).place s.column s.top (s.placeholder link)

/-- Replaces sites one after the other; every site has a link. -/
def replaceSites (links : List Link) (c : Circuit) :
    List Site → Except (Stop CircuitError) Circuit
  | [] => .ok c
  | s :: rest =>
    match links.find? (·.pair = s.pair) with
    | some link => do replaceSites links (← c.replaceSite s link) rest
    | none => replaceSites links c rest

/-- Links for pairs of blocks, on consecutive wires from the given one on. -/
def linksFrom (wire : Nat) : List BlockPair → List Link
  | [] => []
  | pair :: rest => ⟨pair, wire, wire + 1⟩ :: linksFrom (wire + 2) rest

/-- Every pair of blocks gets one link. -/
theorem length_linksFrom (wire : Nat) (pairs : List BlockPair) :
    (linksFrom wire pairs).length = pairs.length := by
  induction pairs generalizing wire with
  | nil => rfl
  | cons pair rest ih => simp [linksFrom, ih]

/-- Replaces every gate between two blocks of a partition by a placeholder. A circuit with a site
has a column with a slot for every wire, so the number of wires stays far below the words. -/
def link (c : Circuit) (p : Partition) : Except (Stop CircuitError) (Circuit × Report) := do
  let sites := c.sites p
  let links := linksFrom c.wires (BlockPair.ordered (sites.map (·.pair)))
  let linked ← (c.resized (c.wires + links.length * 2)).replaceSites links sites
  return (linked, ⟨c.wires, links, sites⟩)

end Circuit

end CircuitGrid
