import CircuitGrid.Distribution.Basic
import CircuitGrid.Gate.Text
import CircuitGrid.Partition.Text

/-!
# Distributions as JSON

* `Site.read`, `Site.toJson`: the gates that were replaced;
* `Link.read`, `Link.toJson`: the wires reserved for them;
* `Report.read`, `Report.toJson`: both.
-/

namespace CircuitGrid

open Reader (nat list record)

namespace Link

/-- The fields of a link. -/
def shape (depth : Nat) : Record (Option BlockPair × Option Nat × Option Nat) :=
  (Record.one "pair" (BlockPair.read depth)).and <|
  (Record.one "a" readWire).and <| Record.one "b" readWire

/-- Reads a link. -/
def read (depth : Nat) : Reader Link :=
  record depth shape fun (pair, first, second) => do
    return { pair := ← pair, first := ← first, second := ← second }

/-- A link as JSON. -/
def toJson (l : Link) : Json :=
  .object [("pair", l.pair.toJson), ("a", .nat l.first), ("b", .nat l.second)]

end Link

namespace Site

/-- The fields of a site. -/
def shape (depth : Nat) :
    Record (Option Nat × Option Entangler × Option Nat × Option Nat × Option BlockPair ×
      Option (List Nat)) :=
  (Record.one "column" nat).and <|
  (Record.one "kind" (Entangler.read depth)).and <|
  (Record.one "source" readWire).and <|
  (Record.one "target" readWire).and <|
  (Record.one "pair" (BlockPair.read depth)).and <|
  Record.one "rows" (list depth fun _ => nat)

/-- Reads a site. -/
def read (depth : Nat) : Reader Site :=
  record depth shape fun (column, kind, source, target, pair, rows) => do
    return {
      column := ← column
      kind := ← kind
      source := ← source
      target := ← target
      pair := ← pair
      rows := ← rows }

/-- A site as JSON. -/
def toJson (s : Site) : Json :=
  .object [("column", .nat s.column), ("kind", .text s.kind.name), ("source", .nat s.source),
    ("target", .nat s.target), ("pair", s.pair.toJson), ("rows", .list (s.rows.map .nat))]

end Site

namespace Report

/-- The fields of a report. -/
def shape (depth : Nat) : Record (Option Nat × Option (List Link) × Option (List Site)) :=
  (Record.one "original_wires" nat).and <|
  (Record.one "links" (list depth Link.read)).and <|
  Record.one "sites" (list depth Site.read)

/-- Reads a report. -/
def read (depth : Nat) : Reader Report :=
  record depth shape fun (wires, links, sites) => do
    return { wires := ← wires, links := ← links, sites := ← sites }

/-- A report as JSON. -/
def toJson (r : Report) : Json :=
  .object [("original_wires", .nat r.wires), ("links", .list (r.links.map (·.toJson))),
    ("sites", .list (r.sites.map (·.toJson)))]

end Report

end CircuitGrid
