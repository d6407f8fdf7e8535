import Isolate.Location

/-!
# The function around a CommonJS file

A CommonJS file is the body of a function of `exports` and `module`. The head of that function stands
on the first line of the compiled text, so columns on that line are shifted by its length, and
nothing else is.
-/

namespace Isolate.Wrapper

/-- What stands before a file's body. -/
def head : List Char := "(function (exports, module) \x7b".toList

/-- What stands behind a file's body. -/
def tail : List Char := "\n\x7d)".toList

def wrap (body : List Char) : List Char := head ++ body ++ tail

/-- The place in a file of a place in its compiled text: on the first line the head is taken off, and
a place in the head itself is the first column. -/
def unwrap (location : Location) : Location :=
  match location.line, location.column with
  | some 1, some column => { location with column := some (max 1 (column - head.length)) }
  | _, _ => location

def positionOf : (line column : Nat) → List Char → (offset : Nat) → Nat × Nat
  | line, column, _, 0 => (line, column)
  | line, column, [], _ + 1 => (line, column)
  | line, column, c :: rest, n + 1 =>
    if c = '\n' then positionOf (line + 1) 1 rest n else positionOf line (column + 1) rest n

end Isolate.Wrapper
