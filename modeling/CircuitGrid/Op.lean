/-!
# Operations of a lowered circuit

The thirty operations that lowering can produce. They are neutral towards the output dialects: each
dialect has its own spelling for them or rejects them.

* `Op`: the operations, `Op.all` lists them in order;
* `Op.name`, `Op.ofName?`: their names;
* `Op.arity`, `Op.angles`: the number of wires and of angles an operation takes.
-/

namespace CircuitGrid

/-- An operation of a lowered circuit. -/
inductive Op where
  | x | y | z | h | s | sdg | t | tdg | sx | sxdg
  | rx | ry | rz | phase
  | cx | cy | cz | ch | cs | csdg | ct | ctdg | csx
  | crx | cry | crz | cphase
  | ccx | swap | cswap
deriving Repr, DecidableEq

namespace Op

/-- Every operation, in order. -/
def all : List Op :=
  [x, y, z, h, s, sdg, t, tdg, sx, sxdg, rx, ry, rz, phase, cx, cy, cz, ch, cs, csdg, ct, ctdg,
    csx, crx, cry, crz, cphase, ccx, swap, cswap]

/-- The name of an operation. -/
def name : Op → String
  | x => "x" | y => "y" | z => "z" | h => "h" | s => "s" | sdg => "sdg" | t => "t" | tdg => "tdg"
  | sx => "sx" | sxdg => "sxdg" | rx => "rx" | ry => "ry" | rz => "rz" | phase => "phase"
  | cx => "cx" | cy => "cy" | cz => "cz" | ch => "ch" | cs => "cs" | csdg => "csdg" | ct => "ct"
  | ctdg => "ctdg" | csx => "csx" | crx => "crx" | cry => "cry" | crz => "crz"
  | cphase => "cphase" | ccx => "ccx" | swap => "swap" | cswap => "cswap"

/-- The operation with a given name. -/
def ofName? (name : String) : Option Op := all.find? (·.name == name)

/-- The number of wires an operation acts on. -/
def arity : Op → Nat
  | ccx | cswap => 3
  | cx | cy | cz | ch | cs | csdg | ct | ctdg | csx | crx | cry | crz | cphase | swap => 2
  | _ => 1

/-- The number of angles an operation takes. -/
def angles : Op → Nat
  | rx | ry | rz | phase | crx | cry | crz | cphase => 1
  | _ => 0

/-- Every operation is listed. -/
theorem mem_all (op : Op) : op ∈ all := by cases op <;> decide

/-- The name of an operation leads back to it. -/
theorem ofName?_name (op : Op) : ofName? op.name = some op := by cases op <;> decide

end Op

end CircuitGrid
