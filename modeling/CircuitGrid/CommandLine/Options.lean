/-!
# Options of a command line

Options are given in any order, before and between words. A long name follows two dashes and may be
joined to its value by an equals sign; short names follow one dash, several in one word, the last
one perhaps joined to its value with or without an equals sign. A value that stands by itself does
not begin with a dash, unless it is a dash alone. Only counters may be repeated. Two dashes alone
end the options.

* `Flag`: the options that are known;
* `readCount`: the numbers that options can have;
* `Given`: the options that were given, with their values;
* `scan`: the options of a command line, up to the first other word.
-/

namespace CircuitGrid

/-- What an option stands for. -/
inductive FlagKind where
  /-- It is given or not. -/
  | switch
  /-- It may be repeated. -/
  | counter
  /-- It has a text for a value. -/
  | text
  /-- It has a natural number of 64 bits for a value. -/
  | number
deriving Repr, DecidableEq

/-- An option of a command line. -/
structure Flag where
  long : String
  short : Option Char
  kind : FlagKind
deriving Repr, DecidableEq

/-- The options that were given, by their long names; those without a value have an empty one. -/
abbrev Given : Type := List (String × String)

/-- What is found on a command line. -/
inductive Scanned where
  /-- Help is wanted. -/
  | help
  /-- The version is wanted. -/
  | version
  /-- Some options, and the words from the first one on that is no option. -/
  | words (given : Given) (rest : List String)
deriving Repr, DecidableEq

/-- The number of 64 bits that a text denotes in decimal digits, perhaps behind a plus sign. -/
def readCount (s : String) : Option Nat :=
  let digits := match s.toList with
    | '+' :: rest => rest
    | cs => cs
  if digits.isEmpty || !digits.all Char.isDigit then none
  else
    let n := digits.foldl (fun n c => n * 10 + (c.toNat - 48)) 0
    if n < Nat.pow 2 64 then some n else none

/-- Whether an option has a value. -/
def Flag.hasValue (flag : Flag) : Bool := flag.kind = .text || flag.kind = .number

/-- Whether an option can have the given value. -/
def Flag.accepts (flag : Flag) (value : String) : Bool :=
  flag.kind ≠ .number || (readCount value).isSome

namespace Given

/-- Whether an option was given. -/
def has (given : Given) (flag : Flag) : Bool := (given.lookup flag.long).isSome

/-- Adds an option with a value that it accepts. Only a counter may be there already. -/
def add (given : Given) (flag : Flag) (value : String) : Option Given :=
  if given.has flag && flag.kind ≠ .counter then none
  else if flag.accepts value then some ((flag.long, value) :: given)
  else none

end Given

/-- Splits a long option into its name and its value, if one is joined to it. -/
def splitLong (cs : List Char) : List Char × Option (List Char) :=
  match cs.dropWhile (· ≠ '=') with
  | [] => (cs, none)
  | _ :: value => (cs.takeWhile (· ≠ '='), some value)

/-- Whether a word can be the value of the option before it. -/
def isValue (word : String) : Bool :=
  match word.toList with
  | '-' :: _ :: _ => false
  | _ => true

/-- What reading one word of options leads to. -/
inductive Reached where
  | help
  | version
  | given (given : Given)
  /-- The next word has to be the value of an option. -/
  | pending (given : Given) (flag : Flag)

/-- Takes an option that has no value. -/
def take (given : Given) (flag : Flag) : Option Reached :=
  if flag.long = "help" then some .help
  else if flag.long = "version" then some .version
  else (given.add flag "").map .given

/-- Reads a long option. -/
def readLong (known : List Flag) (given : Given) (cs : List Char) : Option Reached := do
  let (name, value) := splitLong cs
  let flag ← known.find? (·.long.toList = name)
  match flag.hasValue, value with
  | true, some value => (given.add flag (String.ofList value)).map .given
  | true, none => some (.pending given flag)
  | false, some _ => none
  | false, none => take given flag

/-- Reads the short options of a word. -/
def readShort (known : List Flag) (given : Given) : List Char → Option Reached
  | [] => some (.given given)
  | c :: rest => do
    let flag ← known.find? (·.short = some c)
    if flag.hasValue then
      match rest with
      | [] => some (.pending given flag)
      | '=' :: value => (given.add flag (String.ofList value)).map .given
      | value => (given.add flag (String.ofList value)).map .given
    else
      match ← take given flag with
      | .given given => readShort known given rest
      | reached => some reached

/-- Reads a word: an option or several; none if it is no option. -/
def readWord (known : List Flag) (given : Given) (word : String) : Option (Option Reached) :=
  match word.toList with
  | '-' :: '-' :: name => some (readLong known given name)
  | '-' :: c :: rest => some (readShort known given (c :: rest))
  | _ => none

/-- Reads options up to the first word that is none. No result means that the command line is not
understood. -/
def scan (known : List Flag) (given : Given) : List String → Option Scanned
  | [] => some (.words given [])
  | word :: rest =>
    if word = "--" then if rest.isEmpty then some (.words given []) else none
    else
      match readWord known given word with
      | none => some (.words given (word :: rest))
      | some none => none
      | some (some .help) => some .help
      | some (some .version) => some .version
      | some (some (.given given)) => scan known given rest
      | some (some (.pending given flag)) =>
        match rest with
        | [] => none
        | value :: rest =>
          if isValue value then do scan known (← given.add flag value) rest else none

end CircuitGrid
