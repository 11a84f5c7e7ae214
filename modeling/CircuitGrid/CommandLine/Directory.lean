import CircuitGrid.CommandLine.Task

/-!
# A directory in memory

A path is walked part by part from the directory, or from outside if it begins with a slash. The
directory holds files only. What lies outside is never seen: nothing is found there, and what is
written there is not kept.

* `PathError`: why a path leads nowhere;
* `Directory`: files by their names;
* `Directory.walk`: the place that a path leads to;
* `Directory.host`: commands that work in such a directory.
-/

namespace CircuitGrid

/-- Why a path leads nowhere. -/
inductive PathError where
  | missing
  | notDirectory
  | isDirectory
  | tooLong
deriving Repr, DecidableEq

/-- The wording of an error, with the number that the system gives it. -/
def PathError.message : PathError → String
  | .missing => "No such file or directory (os error 2)"
  | .notDirectory => "Not a directory (os error 20)"
  | .isDirectory => "Is a directory (os error 21)"
  | .tooLong => "File name too long (os error 36)"

/-- Where a path leads. -/
inductive Place where
  /-- The directory itself. -/
  | here
  /-- Another directory. -/
  | outside
  | file (content : String)
deriving Repr, DecidableEq

/-- The number of bytes in the longest path. -/
def maxPathBytes : Nat := 4095

/-- The number of bytes in the longest name of a file. -/
def maxNameBytes : Nat := 255

/-- The files of a directory by their names. -/
abbrev Directory : Type := List (String × String)

namespace Directory

/-- Goes from a place to the next part of a path. An empty part, such as the one after a slash at
the end, stays where it is, but like any other part it asks for a directory to be there. -/
def step (d : Directory) (place : Place) (part : String) : Except PathError Place :=
  match place with
  | .file _ => .error .notDirectory
  | .here =>
    if part = "" || part = "." then .ok .here
    else if part = ".." then .ok .outside
    else if maxNameBytes < part.utf8ByteSize then .error .tooLong
    else
      match d.lookup part with
      | some content => .ok (.file content)
      | none => .error .missing
  | .outside =>
    if part = "" || part = "." || part = ".." then .ok .outside
    else if maxNameBytes < part.utf8ByteSize then .error .tooLong
    else .error .missing

/-- The place that the parts of a path lead to. -/
def follow (d : Directory) (start : Place) (parts : List String) : Except PathError Place :=
  parts.foldlM d.step start

/-- Where a path begins. An empty path and one that is too long begin nowhere. -/
def start (path : String) : Except PathError Place :=
  if path = "" then .error .missing
  else if maxPathBytes < path.utf8ByteSize then .error .tooLong
  else .ok (if path.startsWith "/" then .outside else .here)

/-- The place that a path leads to. -/
def walk (d : Directory) (path : String) : Except PathError Place := do
  d.follow (← start path) (path.splitOn "/")

/-- What a path leads to. Whatever is wrong with the path, it leads to nothing. -/
def read (d : Directory) (path : String) : Source :=
  match d.walk path with
  | .error _ => .missing
  | .ok (.file content) => .text content
  | .ok _ => .unreadable PathError.isDirectory.message

/-- Sets the content of a file. -/
def setFile (d : Directory) (name content : String) : Directory :=
  match d with
  | [] => [(name, content)]
  | (other, old) :: rest =>
    if other = name then (name, content) :: rest
    else (other, old) :: setFile rest name content

/-- Writes a text to a path. The last part that is not empty is the name of the file; the parts
before it lead to its directory. Dots and a slash at the end name a directory, whether or not there
is one. -/
def write (d : Directory) (path content : String) : Except PathError Directory := do
  let start ← start path
  match (path.splitOn "/").reverse.dropWhile (· = "") with
  | [] => throw .isDirectory
  | name :: before =>
    match ← d.follow start before.reverse with
    | .file _ => throw .notDirectory
    | place =>
      if path.endsWith "/" || name = "." || name = ".." then throw .isDirectory
      else if maxNameBytes < name.utf8ByteSize then throw .tooLong
      else return if place = .here then d.setFile name content else d

/-- Commands work in the directory. -/
def host : Host (StateM Directory) where
  read path := return (← get).read path
  write path content := do
    match (← get).write path content with
    | .error error => return some error.message
    | .ok d =>
      set d
      return none

end Directory

end CircuitGrid
