import Isolate.Path.Basic

/-!
# Places in a worker's files

A location names a unit of code by a label and, where it is known, a line and a column, both counted
from one. A unit that has no file has a fixed label.
-/

namespace Isolate

/-- A place in a unit of code. -/
structure Location where
  label : String
  line : Option Nat := none
  column : Option Nat := none
  deriving Repr, DecidableEq

namespace Location

/-- The location in words; a column is written behind a line only. -/
def describe (location : Location) : String :=
  match location.line, location.column with
  | none, _ => location.label
  | some line, none => s!"{location.label}:{line}"
  | some line, some column => s!"{location.label}:{line}:{column}"

end Location

/-- Where a unit of code comes from. -/
inductive Origin where
  /-- A text without a file. -/
  | anonymous
  | file (path : Path)
  deriving Repr, DecidableEq

namespace Origin

def anonymousLabel : String := "<anonymous>"

def label : Origin → String
  | anonymous => anonymousLabel
  | file path => path.text

def path? : Origin → Option Path
  | anonymous => none
  | file path => some path

end Origin
end Isolate
