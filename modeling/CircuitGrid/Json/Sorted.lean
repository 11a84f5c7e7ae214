import CircuitGrid.Json.Value

/-!
# JSON values with sorted keys

* `Json.sorted`: a value with the members of all its objects in the order of their keys.
-/

namespace CircuitGrid

namespace Json

mutual

/-- The value with the members of all objects in the order of their keys. -/
def sorted : Json → Json
  | .null => .null
  | .bool b => .bool b
  | .nat n => .nat n
  | .float x => .float x
  | .text s => .text s
  | .list items => .list (sortedItems items)
  | .object members => .object ((sortedMembers members).mergeSort fun a b => a.1 ≤ b.1)

/-- The items of a list, each sorted. -/
def sortedItems : List Json → List Json
  | [] => []
  | item :: rest => item.sorted :: sortedItems rest

/-- The members of an object, each value sorted. -/
def sortedMembers : List (String × Json) → List (String × Json)
  | [] => []
  | (key, value) :: rest => (key, value.sorted) :: sortedMembers rest

end

end Json

end CircuitGrid
