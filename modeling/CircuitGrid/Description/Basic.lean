import CircuitGrid.Gate

/-!
# Descriptions of circuits

A description is the form in which circuits are kept: rows of gate ids, the definitions of the
gates that are not built in, and the number of wires. Definitions hold for the nested circuits of
later definitions, too.

* `Sheet`, `Definition`, `Description`: a description is a sheet of definitions;
* `Cell`: an empty slot or the id of a gate.
-/

namespace CircuitGrid

/-- A slot of a description. -/
inductive Cell where
  | empty
  | gate (id : String)
deriving Repr, DecidableEq

/-- Columns of cells, the definitions of their gates, and the number of wires if it is given. -/
structure Sheet (δ : Type) where
  columns : List (List Cell)
  gates : List δ
  wires : Option Nat

/-- The definition of a gate: a placeholder, a circuit, a matrix or an export, in this order of
preference. -/
structure Definition where
  id : String
  name : Option String
  symbol : Option String
  height : Option Nat
  circuit : Option (Sheet Definition)
  matrix : Option (List (Float × Float))
  exports : Option Export
  nonLocal : Option Placeholder

/-- A description is a sheet of definitions. -/
abbrev Description : Type := Sheet Definition

end CircuitGrid
