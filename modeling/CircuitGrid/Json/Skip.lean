import CircuitGrid.Json.Reader

/-!
# Passing over JSON values

The value of an unknown member is passed over at any depth of nesting. Its strings may hold halves
of pairs and its numbers may be of any size, but both must be well formed.

* `Reader.skipValue`: passing over one value.
-/

namespace CircuitGrid

namespace Reader

/-- Passes over the digits that come next; there must be one. -/
def skipDigits : Reader Unit := do
  match ← get with
  | c :: _ => if c.isDigit then modify (·.dropWhile Char.isDigit) else throw .malformed
  | [] => throw .malformed

/-- Passes over a number behind its sign. -/
def skipNumber : Reader Unit := do
  let before ← get
  skipDigits
  match before with
  | '0' :: c :: _ => if c.isDigit then throw .malformed
  | _ => pure ()
  if (← get).head? = some '.' then
    advance
    skipDigits
  let next := (← get).head?
  if next = some 'e' ∨ next = some 'E' then
    advance
    let sign := (← get).head?
    if sign = some '+' ∨ sign = some '-' then advance
    skipDigits

/-- What follows the closing quote of a string that is passed over. -/
def afterText : List Char → Except Fault (List Char)
  | [] => .error .truncated
  | '"' :: rest => .ok rest
  | '\\' :: 'u' :: a :: b :: c :: d :: rest =>
    if (hexValue4? a b c d).isSome then afterText rest else .error .malformed
  | '\\' :: 'u' :: rest => .error (hexFault rest)
  | ['\\'] => .error .truncated
  | '\\' :: c :: rest => if (unescaped? c).isSome then afterText rest else .error .malformed
  | c :: rest => if c.toNat < 0x20 then .error .malformed else afterText rest

/-- Passes over a string behind its opening quote. -/
def skipText : Reader Unit := fun s => (afterText s).map fun rest => ((), rest)

/-- Passes over the key of a member and its colon. -/
def skipKey : Reader Unit := do
  match ← peek with
  | none => throw .truncated
  | some c =>
    if c = '"' then
      advance
      skipText
      colon
    else throw .malformed

/-- Whether another item follows in a container that ends with `close`. -/
def another (close : Char) (first : Bool) : Reader Bool := do
  match ← peek with
  | none => throw .truncated
  | some c =>
    if c = close then
      advance
      return false
    else if first then return true
    else if c = ',' then
      advance
      return true
    else throw .malformed

mutual

/-- Passes over one value; `fuel` bounds the number of steps. -/
def skipWithin : Nat → Reader Unit
  | 0 => throw .truncated
  | fuel + 1 => do
    match ← peek with
    | none => throw .truncated
    | some c =>
      if c = 'n' then exactly "null".toList
      else if c = 't' then exactly "true".toList
      else if c = 'f' then exactly "false".toList
      else if c = '-' then
        advance
        skipNumber
      else if c.isDigit then skipNumber
      else if c = '"' then
        advance
        skipText
      else if c = '[' then
        advance
        skipItems fuel true
      else if c = '\x7b' then
        advance
        skipMembers fuel true
      else throw .malformed

/-- Passes over the items of a list and its end. -/
def skipItems : Nat → Bool → Reader Unit
  | 0, _ => throw .truncated
  | fuel + 1, first => do
    if ← another ']' first then
      skipWithin fuel
      skipItems fuel false

/-- Passes over the members of an object and its end. -/
def skipMembers : Nat → Bool → Reader Unit
  | 0, _ => throw .truncated
  | fuel + 1, first => do
    if ← another '\x7d' first then
      skipKey
      skipWithin fuel
      skipMembers fuel false

end

/-- Passes over one value. Every step consumes a character or closes a container, so twice the
length of the text is enough. -/
def skipValue : Reader Unit := do skipWithin (2 * (← get).length + 2)

end Reader

end CircuitGrid
