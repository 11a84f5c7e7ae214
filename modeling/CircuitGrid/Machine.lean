/-!
# Limits of the machine

Numbers are words of 64 bits. A list takes less than `2 ^ 63` bytes, however much memory there is:
where a longer one is asked for the program panics, and so it does where it looks for an entry that
is not there. What descriptions and distributions mean is said for a memory without limits; in a
limited one a run gives the same, or it panics.

* `wordLimit`, `wireLimit`: the first number that is no word, and the first that is no wire;
* `Memory`, `Memory.holds`: the lists that a memory holds;
* `Stop`: why a run ends without a result.
-/

namespace CircuitGrid

/-- The first number that is no word of 64 bits. -/
def wordLimit : Nat := Nat.pow 2 64

/-- Wires are numbered with 32 bits. -/
def wireLimit : Nat := Nat.pow 2 32

/-- The wire with a given number. For one of more than 32 bits the program panics. -/
def wireOf? (n : Nat) : Option Nat := if n < wireLimit then some n else none

/-- The wire some rows below another one. The rows are added in words. -/
def offsetWire? (wire rows : Nat) : Option Nat := wireOf? ((wire + rows) % wordLimit)

/-- A memory, by the number of bytes that every list in it stays below. -/
structure Memory where
  limit : Option Nat
deriving Repr, DecidableEq

namespace Memory

/-- A memory that holds every list. -/
def unlimited : Memory := ⟨none⟩

/-- The memory of a machine with addresses of 64 bits. -/
def machine : Memory := ⟨some (Nat.pow 2 63)⟩

/-- Whether a memory holds a list of items that take some bytes each. -/
def holds (m : Memory) (bytes count : Nat) : Bool := m.limit.all (bytes * count < ·)

@[simp] theorem holds_unlimited (bytes count : Nat) : unlimited.holds bytes count = true := rfl

@[simp] theorem holds_machine {bytes count : Nat} :
    machine.holds bytes count = true ↔ bytes * count < Nat.pow 2 63 := by
  simp only [holds, machine, Option.all_some, decide_eq_true_eq]

end Memory

/-- The bytes of a number in a list. -/
def wordBytes : Nat := 8

/-- A list of fewer than `2 ^ 60` numbers can be held. -/
theorem Memory.holds_words {count : Nat} :
    machine.holds wordBytes count = true ↔ count < Nat.pow 2 60 := by
  rw [holds_machine, wordBytes, Nat.pow_eq, Nat.pow_eq]
  omega

/-- Why a run ends without a result. -/
inductive Stop (ε : Type) where
  /-- It found a fault, which it reports. -/
  | fault (e : ε)
  /-- It panicked. -/
  | panic
deriving Repr, DecidableEq

/-- The fault in another place. -/
def Stop.map {ε ε' : Type} (f : ε → ε') : Stop ε → Stop ε'
  | fault e => fault (f e)
  | panic => panic

end CircuitGrid
