import CircuitGrid.Machine
import CircuitGrid.Op

/-!
# Lowered programs

A program is a list of instructions. Each has an output column, and instructions that share a column
act in parallel. Lowering emits slices, each into an output column of its own.

* `Operation`, `Instruction`, `Program`: an instruction is an operation in an output column;
* `Slice`: the operations of an output column;
* `Program.byColumn`: the columns of a program;
* `Program.numColumns`, `Program.countColumns`: their number, and as it is counted in words.
-/

namespace CircuitGrid

/-- An operation on wires, controls first, with its angles and a comment. -/
structure Operation where
  op : Op
  wires : List Nat
  params : List Float := []
  label : Option String := none
deriving Repr, BEq

/-- The operations of one output column. -/
abbrev Slice : Type := List Operation

/-- An operation in an output column. -/
structure Instruction extends Operation where
  column : Nat
deriving Repr, BEq

namespace Instruction

/-- Whether the instruction acts on a wire. -/
def touches (i : Instruction) (wire : Nat) : Bool := i.wires.contains wire

/-- Whether the instruction acts on more than one wire. -/
def isMultiWire (i : Instruction) : Bool := i.wires.length > 1

end Instruction

/-- A number of wires and the instructions on them, in order. -/
structure Program where
  wires : Nat
  instructions : List Instruction
deriving Repr, BEq

/-- Neighbouring instructions of the same column, gathered. -/
def gatherColumns : List Instruction → List (Nat × List Instruction)
  | [] => []
  | i :: rest =>
    match gatherColumns rest with
    | (column, group) :: others =>
      if column = i.column then (column, i :: group) :: others
      else (i.column, [i]) :: (column, group) :: others
    | [] => [(i.column, [i])]

namespace Program

/-- The number of output columns. -/
def numColumns (p : Program) : Nat :=
  p.instructions.foldl (fun count i => max count (i.column + 1)) 0

/-- The number of output columns that is counted in words: behind the last word comes zero. -/
def countColumns (p : Program) : Nat :=
  p.instructions.foldl (fun count i => max count ((i.column + 1) % wordLimit)) 0

/-- Words count the columns of a program that leaves the last of them out. -/
theorem countColumns_eq {p : Program} (few : ∀ i ∈ p.instructions, i.column + 1 < wordLimit) :
    p.countColumns = p.numColumns := by
  obtain ⟨wires, instructions⟩ := p
  have counted (start : Nat) :
      instructions.foldl (fun count i => max count ((i.column + 1) % wordLimit)) start =
        instructions.foldl (fun count i => max count (i.column + 1)) start := by
    induction instructions generalizing start with
    | nil => rfl
    | cons i rest ih =>
      rw [List.foldl_cons, List.foldl_cons, Nat.mod_eq_of_lt (few i List.mem_cons_self)]
      exact ih (fun j inside => few j (List.mem_cons_of_mem i inside)) _
  exact counted 0

/-- How often an operation occurs. -/
def count (p : Program) (op : Op) : Nat := p.instructions.countP (·.op == op)

/-- The instructions column by column. -/
def byColumn (p : Program) : List (Nat × List Instruction) := gatherColumns p.instructions

end Program

end CircuitGrid
