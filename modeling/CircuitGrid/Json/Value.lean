import CircuitGrid.Decimal.Notation

/-!
# JSON values and their texts

A value is written compactly, or indented by two spaces a level. Only the quote, the backslash and
the control characters are escaped; members keep the order in which they are given.

* `Json`: the values that are written;
* `Json.compact`, `Json.pretty`: the two texts of a value;
* `Json.quoted`: a string as JSON.
-/

namespace CircuitGrid

/-- A JSON value to be written. -/
inductive Json where
  | null
  | bool (b : Bool)
  | nat (n : Nat)
  | float (x : Float)
  | text (s : String)
  | list (items : List Json)
  | object (members : List (String × Json))

namespace Json

/-- The digit of a number below sixteen, in lower case. -/
def hexDigit (n : Nat) : Char := Char.ofNat (if n < 10 then 48 + n else 87 + n)

/-- One character of a string: itself, a letter behind a backslash, or its code. -/
def escaped (c : Char) : List Char :=
  if c = '"' then ['\\', '"']
  else if c = '\\' then ['\\', '\\']
  else if c = '\n' then ['\\', 'n']
  else if c = '\r' then ['\\', 'r']
  else if c = '\t' then ['\\', 't']
  else if c = '\x08' then ['\\', 'b']
  else if c = '\x0c' then ['\\', 'f']
  else if c.toNat < 0x20 then
    ['\\', 'u', '0', '0', hexDigit (c.toNat / 16), hexDigit (c.toNat % 16)]
  else [c]

/-- A string as JSON. -/
def quoted (s : String) : String := "\"" ++ String.ofList (s.toList.flatMap escaped) ++ "\""

/-- The text of a number; what is not finite has none and becomes `null`. -/
def ofFloat (x : Float) : String := if x.isFinite then natural x else "null"

mutual

/-- The text of a value without blanks. -/
def compact : Json → String
  | .null => "null"
  | .bool b => if b then "true" else "false"
  | .nat n => toString n
  | .float x => ofFloat x
  | .text s => quoted s
  | .list items => "[" ++ compactItems items ++ "]"
  | .object members => "\x7b" ++ compactMembers members ++ "\x7d"

/-- The items of a list, separated by commas. -/
def compactItems : List Json → String
  | [] => ""
  | [item] => item.compact
  | item :: rest => item.compact ++ "," ++ compactItems rest

/-- The members of an object, separated by commas. -/
def compactMembers : List (String × Json) → String
  | [] => ""
  | [(key, value)] => quoted key ++ ":" ++ value.compact
  | (key, value) :: rest => quoted key ++ ":" ++ value.compact ++ "," ++ compactMembers rest

end

/-- The start of a line at the given level. -/
def indent (level : Nat) : String := "\n".pushn ' ' (2 * level)

mutual

/-- The indented text of a value that starts at the given level. -/
def prettyAt (level : Nat) : Json → String
  | .list [] => "[]"
  | .list items => "[" ++ prettyItems (level + 1) items ++ indent level ++ "]"
  | .object [] => "\x7b\x7d"
  | .object members => "\x7b" ++ prettyMembers (level + 1) members ++ indent level ++ "\x7d"
  | .null => "null"
  | .bool b => if b then "true" else "false"
  | .nat n => toString n
  | .float x => ofFloat x
  | .text s => quoted s

/-- The items of a list, one to a line. -/
def prettyItems (level : Nat) : List Json → String
  | [] => ""
  | [item] => indent level ++ item.prettyAt level
  | item :: rest => indent level ++ item.prettyAt level ++ "," ++ prettyItems level rest

/-- The members of an object, one to a line. -/
def prettyMembers (level : Nat) : List (String × Json) → String
  | [] => ""
  | [(key, value)] => indent level ++ quoted key ++ ": " ++ value.prettyAt level
  | (key, value) :: rest =>
    indent level ++ quoted key ++ ": " ++ value.prettyAt level ++ "," ++ prettyMembers level rest

end

/-- The indented text of a value. -/
def pretty (value : Json) : String := value.prettyAt 0

/-- A member that is left out when it has no value. -/
def optional {α : Type} (key : String) (write : α → Json) : Option α → List (String × Json)
  | none => []
  | some value => [(key, write value)]

/-- A member that is left out when its list is empty. -/
def nonempty {α : Type} (key : String) (write : α → Json) : List α → List (String × Json)
  | [] => []
  | items => [(key, .list (items.map write))]

end Json

end CircuitGrid
