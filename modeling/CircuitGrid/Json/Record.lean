import CircuitGrid.Json.Number
import CircuitGrid.Json.Skip

/-!
# Reading JSON lists, records and choices

Containers count against a depth: how many more may be open inside the current one. A record is an
object with known keys, or a list of its fields in their order, from which trailing fields may be
missing; unknown keys are passed over and a repeated key is refused.

* `Reader.list`, `Reader.pair`: lists of any length and of two items;
* `Record`, `Reader.record`: records and how they are read;
* `Reader.choice`: one of several names;
* `Reader.cell`: a value of any kind, told apart only as far as a cell needs;
* `Reader.run`: reading a whole text.
-/

namespace CircuitGrid

/-- The number of lists and objects that may be open at once. -/
def maxDepth : Nat := 127

namespace Reader

/-- Enters a container, whose opening character comes next. -/
def enter : Nat → Reader Nat
  | 0 => throw .malformed
  | depth + 1 => do
    advance
    return depth

/-- Whether another item of a list follows; passes over the comma before it. -/
def anotherItem (first : Bool) : Reader Bool := do
  match ← peek with
  | none => throw .truncated
  | some c =>
    if c = ']' then return false
    else if first then return true
    else if c = ',' then
      advance
      match ← peek with
      | none => throw .truncated
      | some d => if d = ']' then throw .malformed else return true
    else throw .malformed

/-- Reads the end of a container; anything else that stands there is malformed. -/
def close (c : Char) : Reader Unit := do
  match ← peek with
  | none => throw .truncated
  | some d => if d = c then advance else throw .malformed

/-- Reads the items of a list up to its end; `fuel` bounds their number. -/
def items {α : Type} (item : Reader α) : Nat → Bool → Reader (List α)
  | 0, _ => throw .truncated
  | fuel + 1, first => do
    if ← anotherItem first then
      let value ← item
      return value :: (← items item fuel false)
    else return []

/-- Reads a list. Its items learn how many containers they may open. -/
def list {α : Type} (depth : Nat) (item : Nat → Reader α) : Reader (List α) := do
  match ← peek with
  | none => throw .truncated
  | some c =>
    if c = '[' then
      let inner ← enter depth
      let found ← items (item inner) ((← get).length + 1) true
      close ']'
      return found
    else wrongKind

/-- Reads a list of exactly two items. -/
def pair {α : Type} (depth : Nat) (item : Nat → Reader α) : Reader (α × α) := do
  match ← peek with
  | none => throw .truncated
  | some c =>
    if c = '[' then
      let inner ← enter depth
      unless ← anotherItem true do throw .mismatched
      let first ← item inner
      unless ← anotherItem false do throw .mismatched
      let second ← item inner
      close ']'
      return (first, second)
    else wrongKind

end Reader

/-! ## Records -/

/-- A field of a record whose fields are gathered in a `δ`. -/
structure Field (δ : Type) where
  key : String
  /-- Whether the field has been read already. -/
  filled : δ → Bool
  /-- Reads the field. -/
  fill : δ → Reader δ

/-- A record before anything is read, and its fields in their order. -/
structure Record (δ : Type) where
  blank : δ
  fields : List (Field δ)

namespace Record

variable {δ ε τ : Type}

/-- The record with one field. -/
def one (key : String) (value : Reader τ) : Record (Option τ) where
  blank := none
  fields := [⟨key, Option.isSome, fun _ => do return some (← value)⟩]

/-- The fields of one record followed by those of another. -/
def and (first : Record δ) (second : Record ε) : Record (δ × ε) where
  blank := (first.blank, second.blank)
  fields :=
    first.fields.map (fun f => ⟨f.key, fun d => f.filled d.1, fun d => do
      return (← f.fill d.1, d.2)⟩) ++
    second.fields.map (fun f => ⟨f.key, fun d => f.filled d.2, fun d => do
      return (d.1, ← f.fill d.2)⟩)

end Record

namespace Reader

variable {α δ : Type}

/-- Whether another key follows; passes over the comma before it. -/
def anotherKey (first : Bool) : Reader Bool := do
  match ← peek with
  | none => throw .truncated
  | some c =>
    if c = '\x7d' then return false
    else if first then
      if c = '"' then return true else throw .malformed
    else if c = ',' then
      advance
      match ← peek with
      | none => throw .truncated
      | some d => if d = '"' then return true else throw .malformed
    else throw .malformed

/-- Reads the members of a record up to the end of the object; `fuel` bounds their number. -/
def members (fields : List (Field δ)) : Nat → Bool → δ → Reader δ
  | 0, _, _ => throw .truncated
  | fuel + 1, first, found => do
    if ← anotherKey first then
      let key ← text
      match fields.find? (·.key == key) with
      | none =>
        colon
        skipValue
        members fields fuel false found
      | some field =>
        if field.filled found then throw .mismatched
        colon
        members fields fuel false (← field.fill found)
    else return found

/-- Reads the fields of a record in their order, up to the end of the list. -/
def inOrder : List (Field δ) → Bool → δ → Reader δ
  | [], _, found => return found
  | field :: rest, first, found => do
    if ← anotherItem first then inOrder rest false (← field.fill found) else return found

/-- Reads a record and completes it; a field that may not be missing is a mismatch. -/
def record (depth : Nat) (shape : Nat → Record δ) (complete : δ → Option α) : Reader α := do
  let found ← match ← peek with
    | none => throw .truncated
    | some c =>
      if c = '[' then do
        let shape := shape (← enter depth)
        let found ← inOrder shape.fields true shape.blank
        close ']'
        pure found
      else if c = '\x7b' then do
        let shape := shape (← enter depth)
        let found ← members shape.fields ((← get).length + 1) true shape.blank
        close '\x7d'
        pure found
      else wrongKind
  match complete found with
  | some value => return value
  | none => throw .mismatched

/-! ## Choices and cells -/

/-- Reads a string that must be one of the given names. -/
def named (names : List (String × α)) : Reader α := do
  match names.lookup (← text) with
  | some value => return value
  | none => throw .mismatched

/-- Reads one of several names: as a string, or as the only key of an object that holds `null`. -/
def choice (depth : Nat) (names : List (String × α)) : Reader α := do
  match ← peek with
  | none => throw .truncated
  | some c =>
    if c = '"' then named names
    else if c = '\x7b' then
      let _ ← enter depth
      let value ← match ← peek with
        | none => throw .truncated
        | some d => if d = '"' then named names else throw .malformed
      colon
      match ← peek with
      | none => throw .truncated
      | some d => if d = 'n' then exactly "null".toList else wrongKind
      close '\x7d'
      return value
    else throw .malformed

/-- A value of any kind, told apart as far as a cell needs. -/
inductive Kind where
  | nat (n : Nat)
  | text (s : String)
  | other

/-- Reads the members of an object whose keys do not matter, up to its end. -/
def entries (value : Reader α) : Nat → Bool → Reader Unit
  | 0, _ => throw .truncated
  | fuel + 1, first => do
    if ← anotherKey first then
      let _ ← text
      colon
      let _ ← value
      entries value fuel false

/-- Reads a value of any kind, the items of a list or object with `inner`. -/
def kindWith (inner : Option (Reader Kind)) : Reader Kind := do
  match ← peek with
  | none => throw .truncated
  | some c =>
    if c = 'n' then
      exactly "null".toList
      return .other
    else if c = 't' then
      exactly "true".toList
      return .other
    else if c = 'f' then
      exactly "false".toList
      return .other
    else if c = '-' || c.isDigit then
      match ← number with
      | .nat n => return .nat n
      | .float _ => return .other
    else if c = '"' then
      advance
      return .text (← textTail)
    else if c = '[' then
      match inner with
      | none => throw .malformed
      | some value =>
        advance
        let _ ← items value ((← get).length + 1) true
        close ']'
        return .other
    else if c = '\x7b' then
      match inner with
      | none => throw .malformed
      | some value =>
        advance
        entries value ((← get).length + 1) true
        close '\x7d'
        return .other
    else throw .malformed

/-- Reads a value of any kind that opens at most `depth` containers inside one another. -/
def anyValue : Nat → Reader Kind
  | 0 => kindWith none
  | depth + 1 => kindWith (some (anyValue depth))

/-- Reads a whole text, after which only blanks may follow. -/
def run (value : Reader α) (source : String) : Except Fault α :=
  match value source.toList with
  | .error fault => .error fault
  | .ok (found, rest) => if (rest.dropWhile isBlank).isEmpty then .ok found else .error .malformed

end Reader

end CircuitGrid
