import CircuitGrid.Partition.Basic
import Mathlib

/-!
# Balanced partitions cover all wires

Wires are dealt to blocks one after the other, and the larger blocks come first. The block numbers
rise along the wires, so that the end of a block is found by halving: the wires of each block are a
range, and the ranges follow one another. A list of `2 ^ 60` numbers takes `2 ^ 63` bytes, so there
are fewer wires than that in a partition, and the sizes of as many blocks are not counted.

* `Partition.length_blockNumbers`: every wire gets the number of a block;
* `Partition.wires_clamped`: the wires of a balanced partition;
* `Partition.deal`: dealing wires to blocks until no wire is left over;
* `bisect_eq`, `any_getElem?_iff`: what halving finds in rising block numbers;
* `Partition.Tiled`: blocks that are ranges of wires, and `Partition.tiled_of_rising`;
* **`Partition.balanced_tiled`**: the blocks of a balanced partition.
-/

namespace CircuitGrid

/-! ## Halving -/

section

variable {items : List Nat} {test : Nat → Bool}

/-- Halving finds the number of leading items that satisfy a test, when all others fail it. -/
theorem bisect_eq {count base size : Nat} (leading : ∀ i, items[i]?.any test ↔ i < count)
    (low : base ≤ count) (high : count ≤ base + size) : bisect test items base size = count := by
  induction base, size using bisect.induct test items with
  | case1 base size small =>
    rw [bisect, if_pos small]
    have here := leading base
    cases found : items[base]?.any test with
    | true =>
      have : base < count := here.mp found
      simp only [Bool.toNat_true]
      omega
    | false =>
      have : ¬ base < count := fun below => by simp [here.mpr below] at found
      simp only [Bool.toNat_false]
      omega
  | case2 base size large half ih =>
    rw [bisect, if_neg large]
    show bisect test items (if items[base + half]?.any test then base + half else base)
      (size - half) = count
    -- The end stays between the two ends of the half that is searched on.
    have middle := leading (base + half)
    have smaller : half ≤ size - half ∧ half < size := by omega
    by_cases found : items[base + half]?.any test
    · have := middle.mp found
      rw [dif_pos found] at ih
      rw [if_pos found]
      exact ih (by omega) (by omega)
    · have := mt middle.mpr found
      rw [dif_neg found] at ih
      rw [if_neg found]
      exact ih (by omega) (by omega)

/-- Among rising items the ones that satisfy a test come first, if smaller items satisfy it too. -/
theorem any_getElem?_iff (rising : items.Pairwise (· ≤ ·))
    (down : ∀ a b, a ≤ b → test b → test a) (i : Nat) :
    items[i]?.any test ↔ i < items.countP test := by
  induction items generalizing i with
  | nil => simp
  | cons item rest ih =>
    obtain ⟨first, rising⟩ := List.pairwise_cons.mp rising
    by_cases passes : test item
    · cases i with
      | zero => simp [passes]
      | succ i => simp [passes, ih rising]
    · have others : rest.countP test = 0 :=
        List.countP_eq_zero.mpr fun b inside h => passes (down item b (first b inside) h)
      have none : (item :: rest).countP test = 0 := by
        rw [List.countP_cons_of_neg passes, others]
      rw [none]
      have := ih rising
      cases i with
      | zero => simp [passes]
      | succ i => simp [this, others]

end

namespace Partition

/-- Blocks of `size` wires, the first `larger` of them with one wire more. -/
theorem sum_blockSizes (size larger count : Nat) :
    ((List.range count).map fun block => size + if block < larger then 1 else 0).sum =
      count * size + min count larger := by
  induction count with
  | zero => simp
  | succ count ih =>
    rw [List.range_succ, List.map_append, List.sum_append, ih, Nat.succ_mul]
    simp only [List.map_cons, List.map_nil, List.sum_cons, List.sum_nil]
    split <;> omega

theorem length_blockNumbers (wires count : Nat) : (blockNumbers wires count).length = wires := by
  have some : 0 < max count 1 := by omega
  rw [blockNumbers]
  generalize max count 1 = count at some
  simp only [List.length_flatMap, List.length_replicate, blockSize]
  rw [sum_blockSizes, Nat.min_eq_right (Nat.le_of_lt (Nat.mod_lt wires some))]
  exact Nat.div_add_mod wires count

theorem wires_clamped (wires requested : Nat) : (clamped wires requested).wires = wires :=
  length_blockNumbers wires _

/-! ## Dealing -/

/-- Deals wires to blocks: `size` wires to each of them, and one more as long as some of the
`larger` wires that are left over remain. -/
def deal (size : Nat) : (larger : Nat) → (blocks : List Nat) → List Nat
  | _, [] => []
  | larger, block :: rest =>
    List.replicate (size + if 0 < larger then 1 else 0) block ++ deal size (larger - 1) rest

/-- The wires that are left over go to the first blocks. -/
theorem deal_range' (size larger first count : Nat) :
    deal size larger (List.range' first count) = (List.range' first count).flatMap fun block =>
      List.replicate (size + if block < first + larger then 1 else 0) block := by
  induction count generalizing first larger with
  | zero => rfl
  | succ count ih =>
    rw [List.range'_succ, deal, ih, List.flatMap_cons]
    congr 1
    · simp
    · refine List.flatMap_congr fun block inside => ?_
      have above : first + 1 ≤ block := (List.mem_range'_1.mp inside).1
      have same : block < first + 1 + (larger - 1) ↔ block < first + larger := by omega
      simp only [same]

theorem blockNumbers_eq_deal (wires count : Nat) :
    blockNumbers wires count =
      deal (wires / max count 1) (wires % max count 1) (List.range (max count 1)) := by
  simp only [blockNumbers, blockSize, List.range_eq_range', deal_range', Nat.zero_add]

/-- The numbers of the first `count` blocks, each as often as it has wires. -/
def runs (sizes : Nat → Nat) (count : Nat) : List Nat :=
  (List.range count).flatMap fun block => List.replicate (sizes block) block

section

variable {sizes : Nat → Nat} {count block : Nat}

theorem mem_runs (h : block ∈ runs sizes count) : block < count := by
  obtain ⟨own, inside, h⟩ := List.mem_flatMap.mp h
  rw [List.eq_of_mem_replicate h]
  exact List.mem_range.mp inside

theorem runs_succ :
    runs sizes (count + 1) = runs sizes count ++ List.replicate (sizes count) count := by
  simp [runs, List.range_succ]

theorem pairwise_runs : (runs sizes count).Pairwise (· ≤ ·) := by
  induction count with
  | zero => exact .nil
  | succ count ih =>
    rw [runs_succ, List.pairwise_append]
    refine ⟨ih, List.pairwise_replicate.mpr (.inr (Nat.le_refl _)), fun a before b last => ?_⟩
    rw [List.eq_of_mem_replicate last]
    exact Nat.le_of_lt (mem_runs before)

theorem count_runs (lt : block < count) : (runs sizes count).count block = sizes block := by
  induction count with
  | zero => omega
  | succ count ih =>
    rw [runs_succ, List.count_append, List.count_replicate]
    by_cases last : count = block
    · subst last
      have none : (runs sizes count).count count = 0 :=
        List.count_eq_zero.mpr fun inside => Nat.lt_irrefl _ (mem_runs inside)
      simp [none]
    · simp [last, ih (by omega)]

end

/-! ## Ranges -/

/-- The blocks of a partition are ranges of wires, one after the other, and their sizes can be
counted if a list can hold them. -/
structure Tiled (p : Partition) : Prop where
  mem_range : ∀ block wire, (p.range block).1 ≤ wire ∧ wire < (p.range block).2 ↔
    p.blockOf? wire = some block
  ordered : ∀ block, (p.range block).1 ≤ (p.range block).2
  first : (p.range 0).1 = 0
  next : ∀ block, (p.range block).2 = (p.range (block + 1)).1
  last : (p.range (p.count - 1)).2 = p.wires
  sizes : p.count < 2 ^ 60 → ∃ sizes, p.sizes? = some sizes ∧ sizes.length = p.count ∧
    ∀ block < p.count, sizes[block]? = some ((p.range block).2 - (p.range block).1)

theorem down_lt (block a b : Nat) (le : a ≤ b) (h : decide (b < block)) : decide (a < block) := by
  simp only [decide_eq_true_eq] at h ⊢
  omega

theorem down_le (block a b : Nat) (le : a ≤ b) (h : decide (b ≤ block)) : decide (a ≤ block) := by
  simp only [decide_eq_true_eq] at h ⊢
  omega

section

variable {p : Partition} (rising : p.assignment.Pairwise (· ≤ ·))
include rising

/-- Halving finds where a block starts and ends. -/
theorem range_eq (block : Nat) : p.range block =
    (p.assignment.countP (· < block), p.assignment.countP (· ≤ block)) := by
  have ends {test : Nat → Bool} (down : ∀ a b, a ≤ b → test b → test a) :
      bisect test p.assignment 0 p.wires = p.assignment.countP test :=
    bisect_eq (any_getElem?_iff rising down) (Nat.zero_le _)
      (by simpa [wires] using List.countP_le_length)
  exact Prod.ext (ends (down_lt block)) (ends (down_le block))

theorem mem_range_iff (block wire : Nat) :
    (p.range block).1 ≤ wire ∧ wire < (p.range block).2 ↔ p.blockOf? wire = some block := by
  have start := any_getElem?_iff rising (down_lt block) wire
  have finish := any_getElem?_iff rising (down_le block) wire
  rw [range_eq rising, ← finish, ← Nat.not_lt, ← start, blockOf?]
  cases p.assignment[wire]? with
  | none => simp
  | some own =>
    simp only [Option.any_some, decide_eq_true_eq, Option.some.injEq]
    omega

theorem length_range (block : Nat) :
    (p.range block).2 = (p.range block).1 + p.assignment.count block := by
  rw [range_eq rising]
  simp only
  generalize p.assignment = items
  induction items with
  | nil => rfl
  | cons item rest ih =>
    simp only [List.countP_cons, List.count_cons, ih, decide_eq_true_eq, beq_iff_eq]
    split_ifs <;> omega

/-- Rising block numbers below the number of blocks make every block a range. -/
theorem tiled_of_rising (below : ∀ block ∈ p.assignment, block < p.count) : p.Tiled where
  mem_range := mem_range_iff rising
  ordered block := by
    rw [length_range rising]
    omega
  first := by simp [range_eq rising]
  next block := by simp [range_eq rising]
  last := by
    rw [range_eq rising]
    refine List.countP_eq_length.mpr fun block inside => ?_
    have := below block inside
    simp only [decide_eq_true_eq]
    omega
  sizes few := by
    refine ⟨_, if_pos ?_, by simp, fun block lt => ?_⟩
    · simpa [Memory.holds_words.mpr few] using below
    · rw [length_range rising, Nat.add_sub_cancel_left]
      simp [lt]

end

theorem balanced?_eq (wires count : Nat) : balanced? .machine wires count =
    if wires < 2 ^ 60 then some (balanced wires count) else none := by
  simp only [balanced?, Memory.holds_words, Nat.pow_eq]

/-- **The blocks of a balanced partition.** It is held as long as there are fewer than `2 ^ 60`
wires. These are dealt to the blocks, at least one, so that every wire has a block, the block numbers
rise along the wires, and a block has one wire more than another only if it comes first. Every block
is the range of wires between the one before it and the one after it, and its size is counted unless
there are `2 ^ 60` blocks. When there are no more blocks than wires, no block is empty. -/
theorem balanced_tiled (wires count : Nat) :
    let blocks := max count 1
    let p := balanced wires count
    (balanced? .machine wires count = if wires < 2 ^ 60 then some p else none) ∧
      p.count = blocks ∧
      p.assignment = deal (wires / blocks) (wires % blocks) (List.range blocks) ∧
      p.assignment.length = wires ∧ p.assignment.Pairwise (· ≤ ·) ∧
      (∀ block ∈ p.assignment, block < blocks) ∧
      (∀ block < blocks, p.assignment.count block =
        wires / blocks + if block < wires % blocks then 1 else 0) ∧
      p.Tiled ∧ (p.sizes? = none ↔ 2 ^ 60 ≤ blocks) ∧
      ∀ requested,
        (clamped? .machine wires requested =
          if wires < 2 ^ 60 then some (clamped wires requested) else none) ∧
        (0 < wires → ∀ block < (clamped wires requested).count,
          ∃ wire < wires, (clamped wires requested).blockOf? wire = some block) := by
  intro blocks p
  have runs_eq (wires count : Nat) :
      (balanced wires count).assignment = runs (blockSize wires (max count 1)) (max count 1) := rfl
  have rising (wires count : Nat) : (balanced wires count).assignment.Pairwise (· ≤ ·) := by
    rw [runs_eq]
    exact pairwise_runs
  have size (wires count block : Nat) (lt : block < max count 1) :
      (balanced wires count).assignment.count block = blockSize wires (max count 1) block := by
    rw [runs_eq, count_runs lt]
  have below : ∀ block ∈ p.assignment, block < blocks := fun block inside => mem_runs inside
  have tiled : p.Tiled := tiled_of_rising (rising wires count) below
  have uncounted : p.sizes? = none ↔ 2 ^ 60 ≤ blocks := by
    constructor
    · intro none
      by_contra few
      obtain ⟨sizes, counted, -⟩ := tiled.sizes (Nat.lt_of_not_le few)
      rw [none] at counted
      cases counted
    · intro many
      have unheld : ¬ Memory.machine.holds wordBytes p.count :=
        mt Memory.holds_words.mp (Nat.not_lt.mpr many)
      simp [sizes?, unheld]
  refine ⟨balanced?_eq wires count, rfl, blockNumbers_eq_deal wires count,
    length_blockNumbers wires count, rising wires count, below, size wires count, tiled, uncounted,
    fun requested => ⟨balanced?_eq wires _, fun some block lt => ?_⟩⟩
  have filled : 0 < (clamped wires requested).assignment.count block := by
    have few : max (max 1 (min requested (max wires 1))) 1 ≤ wires := by omega
    have share : 0 < wires / max (max 1 (min requested (max wires 1))) 1 :=
      Nat.div_pos few (by omega)
    rw [clamped, size _ _ _ lt, blockSize]
    omega
  obtain ⟨wire, found⟩ := List.mem_iff_getElem?.mp (List.count_pos_iff.mp filled)
  refine ⟨wire, ?_, found⟩
  rw [← wires_clamped wires requested]
  exact (List.getElem?_eq_some_iff.mp found).1

/-- Seven wires in three blocks, and in as many blocks as wires when more are asked for. -/
theorem balanced_tiled_seven :
    let p := balanced 7 3
    balanced? .machine 7 3 = some p ∧
      p.assignment = [0, 0, 0, 1, 1, 2, 2] ∧ p.Tiled ∧ p.range 1 = (3, 5) ∧
      1 < max 3 1 ∧ p.assignment.count 1 = 7 / 3 + (if 1 < 7 % 3 then 1 else 0) ∧
      6 < (clamped 7 9).count ∧ ∃ wire < 7, (clamped 7 9).blockOf? wire = some 6 := by
  intro p
  obtain ⟨held, -, -, -, -, -, size, tiled, -, filled⟩ := balanced_tiled 7 3
  exact ⟨held, by decide, tiled, by decide +kernel, by decide, size 1 (by decide), by decide,
    (filled 9).2 (by decide) 6 (by decide)⟩

/-- **A partition that cannot be held**: that of `2 ^ 60` wires into one block. -/
theorem not_balanced_tiled :
    ¬ ∀ wires count : Nat, (balanced? .machine wires count).isSome := by
  intro all
  have held := all (2 ^ 60) 1
  rw [balanced?_eq, if_neg (Nat.lt_irrefl _)] at held
  cases held

end Partition

end CircuitGrid
