/-!
# Reading JSON text

Text is read once, from left to right, against the shape that is wanted; the first problem decides
the fault. A value of the wrong kind is read to its end before it is refused, unless it is a list
or an object.

* `Fault`: what can be wrong with a text;
* `Reader`: a step that consumes characters;
* `Reader.text`, `Reader.wrongKind`: strings, and values of another kind than wanted;
* `Reader.run`: reading a whole text.
-/

namespace CircuitGrid

/-- Why a text is refused. -/
inductive Fault where
  /-- The text ends too early. -/
  | truncated
  /-- The text is not JSON. -/
  | malformed
  /-- The text is JSON so far, but not of the wanted shape. -/
  | mismatched
deriving Repr, DecidableEq

/-- A step that reads a value off the front of a text. -/
abbrev Reader (α : Type) : Type := StateT (List Char) (Except Fault) α

namespace Reader

/-- The characters that may stand between tokens. -/
def isBlank (c : Char) : Bool := c = ' ' || c = '\n' || c = '\t' || c = '\r'

/-- The next character that is not blank, left in place. -/
def peek : Reader (Option Char) := do
  modify (·.dropWhile isBlank)
  return (← get).head?

/-- Passes over one character. -/
def advance : Reader Unit := modify (·.drop 1)

/-- Reads exactly the given characters. -/
def exactly : List Char → Reader Unit
  | [] => pure ()
  | c :: rest => do
    match ← get with
    | [] => throw .truncated
    | d :: after =>
      if d = c then
        set after
        exactly rest
      else throw .malformed

/-- Reads the colon between a key and its value. -/
def colon : Reader Unit := do
  match ← peek with
  | none => throw .truncated
  | some c => if c = ':' then advance else throw .malformed

/-! ## Strings -/

/-- The value of a hexadecimal digit. -/
def hexValue? (c : Char) : Option Nat :=
  if '0' ≤ c ∧ c ≤ '9' then some (c.toNat - 48)
  else if 'a' ≤ c ∧ c ≤ 'f' then some (c.toNat - 87)
  else if 'A' ≤ c ∧ c ≤ 'F' then some (c.toNat - 55)
  else none

/-- The number with four hexadecimal digits. -/
def hexValue4? (a b c d : Char) : Option Nat := do
  return (((← hexValue? a) * 16 + (← hexValue? b)) * 16 + (← hexValue? c)) * 16 + (← hexValue? d)

/-- Why four hexadecimal digits cannot be read: fewer than four bytes are left, or others stand
there. -/
def hexFault (rest : List Char) : Fault :=
  if (String.ofList rest).utf8ByteSize < 4 then .truncated else .malformed

/-- The character that a letter behind a backslash stands for. -/
def unescaped? (c : Char) : Option Char :=
  if c = '"' ∨ c = '\\' ∨ c = '/' then some c
  else if c = 'n' then some '\n'
  else if c = 't' then some '\t'
  else if c = 'r' then some '\r'
  else if c = 'b' then some '\x08'
  else if c = 'f' then some '\x0c'
  else none

/-- Whether a 16-bit unit is the first half of a pair. -/
def isHighHalf (n : Nat) : Bool := 0xD800 ≤ n && n ≤ 0xDBFF

/-- Whether a 16-bit unit is the second half of a pair. -/
def isLowHalf (n : Nat) : Bool := 0xDC00 ≤ n && n ≤ 0xDFFF

/-- The character that two halves stand for. -/
def joinHalves (high low : Nat) : Char :=
  Char.ofNat (0x10000 + (high - 0xD800) * 0x400 + (low - 0xDC00))

/-- Why no second half follows a first one. -/
def halfFault : List Char → Fault
  | [] => .truncated
  | ['\\'] => .truncated
  | '\\' :: 'u' :: rest => hexFault rest
  | _ => .malformed

/-- The characters of a string up to its closing quote, and what follows the quote. -/
def textBody (done : List Char) : List Char → Except Fault (List Char × List Char)
  | [] => .error .truncated
  | '"' :: rest => .ok (done.reverse, rest)
  | '\\' :: 'u' :: a :: b :: c :: d :: rest =>
    match hexValue4? a b c d with
    | none => .error .malformed
    | some unit =>
      if isLowHalf unit then .error .malformed
      else if isHighHalf unit then
        match rest with
        | '\\' :: 'u' :: e :: f :: g :: h :: after =>
          match hexValue4? e f g h with
          | none => .error .malformed
          | some low =>
            if isLowHalf low then textBody (joinHalves unit low :: done) after
            else .error .malformed
        | other => .error (halfFault other)
      else textBody (Char.ofNat unit :: done) rest
  | '\\' :: 'u' :: rest => .error (hexFault rest)
  | ['\\'] => .error .truncated
  | '\\' :: c :: rest =>
    match unescaped? c with
    | some plain => textBody (plain :: done) rest
    | none => .error .malformed
  | c :: rest => if c.toNat < 0x20 then .error .malformed else textBody (c :: done) rest

/-- The rest of a string whose opening quote has been passed. -/
def textTail : Reader String := fun s =>
  match textBody [] s with
  | .ok (body, rest) => .ok (String.ofList body, rest)
  | .error fault => .error fault

end Reader

end CircuitGrid
