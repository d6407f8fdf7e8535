import Isolate.Text.Blank

/-!
# Paths and their components

A path is a text; what it names is read from its components. Repeated separators count once, a
component `.` counts only at the very beginning of a relative path, and a separator at the end counts
for nothing. Two paths name the same thing when their components are equal, and paths are ordered by
their components, so that `/a/b` comes before `/a.b`.
-/

namespace Isolate

structure Path where
  text : String
  deriving Repr, DecidableEq, Inhabited

namespace Path

/-- One step of a path. -/
inductive Component where
  | root
  | current
  | parent
  | normal (name : String)
  deriving Repr, DecidableEq

namespace Component

/-- The characters of a component; the root is written by its separator. -/
def toList : Component → List Char
  | root => ['/']
  | current => ['.']
  | parent => ['.', '.']
  | normal name => name.toList

/-- The place of a component's class in the order of components. -/
def rank : Component → Nat
  | root => 0
  | current => 1
  | parent => 2
  | normal _ => 3

/-- Ascending order: by class, then by name. -/
def compare (a b : Component) : Ordering :=
  match a, b with
  | normal x, normal y => if x < y then .lt else if x = y then .eq else .gt
  | a, b => Ord.compare a.rank b.rank

/-- The component that a piece between separators stands for, inside a path. -/
def ofPiece? (piece : List Char) : Option Component :=
  if piece = [] ∨ piece = ['.'] then none
  else if piece = ['.', '.'] then some parent
  else some (normal (String.ofList piece))

end Component

def componentsOf (text : List Char) : List Component :=
  match Text.splitAtChar '/' text with
  | [] => []
  | first :: rest =>
    let inner := rest.filterMap Component.ofPiece?
    if first.isEmpty then
      if rest.isEmpty then [] else .root :: inner
    else if first = ['.'] then .current :: inner
    else (Component.ofPiece? first).toList ++ inner

def components (path : Path) : List Component := componentsOf path.text.toList

def isAbsolute (path : Path) : Bool := path.text.toList.head? == some '/'

def same (p q : Path) : Bool := p.components == q.components

/-- Ascending order of component lists: by the first difference, a beginning before its extensions. -/
def compareComponents : List Component → List Component → Ordering
  | [], [] => .eq
  | [], _ :: _ => .lt
  | _ :: _, [] => .gt
  | a :: as, b :: bs =>
    match a.compare b with
    | .eq => compareComponents as bs
    | order => order

def compare (p q : Path) : Ordering := compareComponents p.components q.components

/-- The components of the directory that holds the last component. The root has no directory above
it, and the empty path has none either: both give no components. -/
def directoryOf (components : List Component) : List Component := components.dropLast

/-- Join a path onto a base: an absolute path stands for itself. -/
def join (base path : Path) : Path :=
  if path.isAbsolute then path
  else if base.text.isEmpty then path
  else if base.text.toList.getLast? == some '/' then ⟨base.text ++ path.text⟩
  else ⟨base.text ++ "/" ++ path.text⟩

/-- Pieces between separators, the last first, without the ones at the end that count for nothing. The
very first piece of a path stays. -/
def dropIdle : List (List Char) → List (List Char)
  | piece :: before :: rest =>
    if piece = [] ∨ piece = ['.'] then dropIdle (before :: rest) else piece :: before :: rest
  | pieces => pieces

/-- What stands in front of the last component, as it was written. The root and the empty path have no
last component. -/
def parent? (path : Path) : Option Path :=
  match dropIdle (Text.splitAtChar '/' path.text.toList).reverse with
  | [] => none
  | [[]] => none
  | _ :: rest =>
    match dropIdle rest with
    | [[]] => some ⟨"/"⟩
    | pieces => some ⟨String.ofList (['/'].intercalate pieces.reverse)⟩

/-- Insert into a list in ascending order; of equal paths the one already there stays. -/
def insertSorted (path : Path) : List Path → List Path
  | [] => [path]
  | p :: rest =>
    match path.compare p with
    | .lt => path :: p :: rest
    | .eq => p :: rest
    | .gt => p :: insertSorted path rest

def isIn (path : Path) (paths : List Path) : Bool := paths.any path.same

end Path
end Isolate
