import CircuitGrid.Gate

/-!
# Partitions of wires

A partition gives every wire the number of a block. The balanced one cuts the wires into contiguous
blocks whose sizes differ by at most one, the larger ones first. Wires that were appended for links
between blocks belong to no block.

* `Partition`, `BlockPair`: blocks of wires, and two of the blocks;
* `Partition.balanced`, `Partition.clamped`, `Partition.ofCircuit`: balanced partitions;
* `Partition.balanced?`, `Partition.clamped?`, `Partition.ofCircuit?`: those that a memory holds;
* `Partition.sizes?`, `Partition.range`: how many wires a block has, and where it starts and ends;
* `Partition.crossing`: the blocks of two wires that are apart;
* `Circuit.dataWires`: the wires that are not links.
-/

namespace CircuitGrid

/-- Two blocks in no order, the lower number first. -/
structure BlockPair where
  low : Nat
  high : Nat
deriving Repr, DecidableEq

namespace BlockPair

/-- The pair of two blocks. -/
def of (a b : Nat) : BlockPair := ⟨min a b, max a b⟩

/-- The text of a pair. -/
def name (p : BlockPair) : String := s!"{p.low}-{p.high}"

/-- The order of pairs, by the lower block first. -/
def before (p q : BlockPair) : Bool := p.low < q.low || (p.low = q.low && p.high < q.high)

/-- Puts a pair into an ordered list that does not hold it yet. -/
def insert (p : BlockPair) : List BlockPair → List BlockPair
  | [] => [p]
  | q :: rest =>
    if p = q then q :: rest
    else if p.before q then p :: q :: rest
    else q :: insert p rest

/-- The pairs of a list in order, each once. -/
def ordered (pairs : List BlockPair) : List BlockPair := pairs.foldr insert []

/-- Inserting a pair adds it and nothing else. -/
theorem mem_insert {p q : BlockPair} {pairs : List BlockPair} :
    q ∈ insert p pairs ↔ q = p ∨ q ∈ pairs := by
  induction pairs with
  | nil => simp [insert]
  | cons r rest ih =>
    simp only [insert]
    split
    · next h => simp [h]
    · split
      · simp
      · simp only [List.mem_cons, ih]
        grind

/-- Ordering keeps the pairs of a list. -/
theorem mem_ordered {q : BlockPair} {pairs : List BlockPair} : q ∈ ordered pairs ↔ q ∈ pairs := by
  induction pairs with
  | nil => simp [ordered]
  | cons p rest ih =>
    simp only [ordered, List.foldr_cons, mem_insert, List.mem_cons] at ih ⊢
    rw [ih]

theorem before_iff {p q : BlockPair} :
    p.before q ↔ p.low < q.low ∨ (p.low = q.low ∧ p.high < q.high) := by
  simp [before]

/-- Inserting a pair into an ordered list keeps it ordered. -/
theorem pairwise_insert {p : BlockPair} {pairs : List BlockPair}
    (sorted : pairs.Pairwise fun p q => p.before q) :
    (insert p pairs).Pairwise fun p q => p.before q := by
  induction pairs with
  | nil => exact List.pairwise_singleton _ p
  | cons q rest ih =>
    obtain ⟨first, others⟩ := List.pairwise_cons.mp sorted
    rw [insert]
    split
    · exact sorted
    · next differ =>
      split
      · next low =>
        refine List.pairwise_cons.mpr ⟨fun r h => ?_, sorted⟩
        obtain _ | ⟨_, later⟩ := h
        · exact low
        · have next := first r later
          rw [before_iff] at low next ⊢
          omega
      · next high =>
        refine List.pairwise_cons.mpr ⟨fun r h => ?_, ih others⟩
        rcases mem_insert.mp h with rfl | later
        · rw [before_iff] at high ⊢
          have : ¬ (r.low = q.low ∧ r.high = q.high) :=
            fun h => differ (by cases r; cases q; simp_all)
          omega
        · exact first r later

/-- The pairs of a list in order rise. -/
theorem pairwise_ordered (pairs : List BlockPair) :
    (ordered pairs).Pairwise fun p q => p.before q := by
  induction pairs with
  | nil => exact .nil
  | cons p rest ih => exact pairwise_insert ih

/-- Ordering a list leaves every pair once. -/
theorem nodup_ordered (pairs : List BlockPair) : (ordered pairs).Nodup := by
  refine (pairwise_ordered pairs).imp fun {p q} low same => ?_
  rw [before_iff, same] at low
  omega

end BlockPair

/-- The number of the block of every wire, and the number of blocks. -/
structure Partition where
  assignment : List Nat
  count : Nat
deriving Repr, DecidableEq

/-- Looks for the end of the leading items that satisfy a test, by halving the `size` items from
`base` on. Where the satisfying items are not the leading ones, it settles somewhere. -/
def bisect (test : Nat → Bool) (items : List Nat) (base size : Nat) : Nat :=
  if size ≤ 1 then base + (items[base]?.any test).toNat
  else
    let half := size / 2
    bisect test items (if items[base + half]?.any test then base + half else base) (size - half)
termination_by size
decreasing_by omega

namespace Partition

/-- The size of a block when `wires` wires are cut into `count` blocks. -/
def blockSize (wires count block : Nat) : Nat :=
  wires / count + if block < wires % count then 1 else 0

/-- The block numbers of `wires` wires cut into `count` blocks; there is at least one block. -/
def blockNumbers (wires count : Nat) : List Nat :=
  (List.range (max count 1)).flatMap fun block =>
    List.replicate (blockSize wires (max count 1) block) block

/-- The wires in contiguous blocks, as even as possible. Blocks that are not needed stay empty. -/
def balanced (wires count : Nat) : Partition := ⟨blockNumbers wires count, max count 1⟩

/-- The balanced partition into the requested number of blocks, at least one and at most one a
wire. -/
def clamped (wires requested : Nat) : Partition :=
  balanced wires (max 1 (min requested (max wires 1)))

/-- The balanced partition, if a memory holds it. -/
def balanced? (m : Memory) (wires count : Nat) : Option Partition :=
  if m.holds wordBytes wires then some (balanced wires count) else none

/-- The balanced partition into the requested number of blocks, if a memory holds it. -/
def clamped? (m : Memory) (wires requested : Nat) : Option Partition :=
  balanced? m wires (max 1 (min requested (max wires 1)))

/-- The number of wires that belong to a block. -/
def wires (p : Partition) : Nat := p.assignment.length

/-- The block of a wire. -/
def blockOf? (p : Partition) (wire : Nat) : Option Nat := p.assignment[wire]?

/-- The number of wires of every block, unless there are more blocks than a list can hold or a wire
belongs to a block that does not exist. -/
def sizes? (p : Partition) : Option (List Nat) :=
  if Memory.machine.holds wordBytes p.count && p.assignment.all (· < p.count) then
    some ((List.range p.count).map fun block => p.assignment.count block)
  else none

/-- The first wire of a block and the wire after its last one. -/
def range (p : Partition) (block : Nat) : Nat × Nat :=
  (bisect (· < block) p.assignment 0 p.wires, bisect (· ≤ block) p.assignment 0 p.wires)

/-- The blocks of two wires, if both have one and they differ. -/
def crossing (p : Partition) (a b : Nat) : Option BlockPair := do
  let first ← p.blockOf? a
  let second ← p.blockOf? b
  if first ≠ second then some (.of first second) else none

/-- Two wires of different blocks are wires of the partition. -/
theorem lt_of_crossing {p : Partition} {a b : Nat} {pair : BlockPair}
    (h : p.crossing a b = some pair) : a < p.wires ∧ b < p.wires := by
  simp only [crossing, Option.bind_eq_bind, Option.bind_eq_some_iff, blockOf?] at h
  obtain ⟨first, isFirst, second, isSecond, -⟩ := h
  exact ⟨(List.getElem?_eq_some_iff.mp isFirst).1, (List.getElem?_eq_some_iff.mp isSecond).1⟩

end Partition

/-- The number of leading wires that are not links: links are only ever appended, so the first one
that a placeholder names begins them. -/
def Circuit.dataWires (c : Circuit) : Nat :=
  let links := c.placements.flatMap fun (_, _, gate) =>
    match gate.placeholder? with
    | some p => [p.link.1, p.link.2]
    | none => []
  links.foldl min c.wires

/-- The balanced partition of the wires of a circuit that are not links. -/
def Partition.ofCircuit (c : Circuit) (requested : Nat) : Partition :=
  clamped c.dataWires requested

/-- The balanced partition of the wires of a circuit that are not links, if a memory holds it. -/
def Partition.ofCircuit? (m : Memory) (c : Circuit) (requested : Nat) : Option Partition :=
  clamped? m c.dataWires requested

/-- Without limits there is a partition for every circuit. -/
@[simp] theorem Partition.ofCircuit?_unlimited (c : Circuit) (requested : Nat) :
    ofCircuit? .unlimited c requested = some (ofCircuit c requested) := rfl

end CircuitGrid
