import CircuitGrid.Json.Record
import CircuitGrid.Json.Value
import CircuitGrid.Partition.Basic

/-!
# Partitions as JSON

* `BlockPair.read`, `BlockPair.toJson`: pairs of blocks;
* `Partition.read`, `Partition.toJson`: partitions.
-/

namespace CircuitGrid

open Reader (nat list record)

namespace BlockPair

/-- The fields of a pair. -/
def shape (_ : Nat) : Record (Option Nat × Option Nat) :=
  (Record.one "low" nat).and <| Record.one "high" nat

/-- Reads a pair, whose numbers are taken as they are. -/
def read (depth : Nat) : Reader BlockPair :=
  record depth shape fun (low, high) => do return { low := ← low, high := ← high }

/-- A pair as JSON. -/
def toJson (p : BlockPair) : Json := .object [("low", .nat p.low), ("high", .nat p.high)]

end BlockPair

namespace Partition

/-- The fields of a partition. -/
def shape (depth : Nat) : Record (Option (List Nat) × Option Nat) :=
  (Record.one "assignment" (list depth fun _ => nat)).and <| Record.one "num_partitions" nat

/-- Reads a partition, whose numbers are taken as they are. -/
def read (depth : Nat) : Reader Partition :=
  record depth shape fun (assignment, count) => do
    return { assignment := ← assignment, count := ← count }

/-- A partition as JSON. -/
def toJson (p : Partition) : Json :=
  .object [("assignment", .list (p.assignment.map .nat)), ("num_partitions", .nat p.count)]

end Partition

end CircuitGrid
