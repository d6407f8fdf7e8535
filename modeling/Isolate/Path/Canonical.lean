import Isolate.Path.Basic

/-!
# Canonical paths

The canonical form of a path is reached by walking its components: `.` stays, `..` goes back over the
last named component, stops at the root, and is kept where a relative path has nothing to go back
over. The written form of a component list puts one separator between components and none at the end.
-/

namespace Isolate.Path

/-- Take one component; the walk so far is kept with its last component first. -/
def step (walked : List Component) (component : Component) : List Component :=
  match component with
  | .current => walked
  | .parent =>
    match walked with
    | .normal _ :: before => before
    | .root :: _ => walked
    | _ => .parent :: walked
  | component => component :: walked

def walk (components : List Component) : List Component := (components.foldl step []).reverse

/-- The written form of components that do not start at the root. -/
def writeRelative : List Component → List Char
  | [] => []
  | [c] => c.toList
  | c :: rest => c.toList ++ '/' :: writeRelative rest

def write : List Component → List Char
  | .root :: rest => '/' :: writeRelative rest
  | components => writeRelative components

def ofComponents (components : List Component) : Path := ⟨String.ofList (write components)⟩

def normalize (path : Path) : Path := ofComponents (walk path.components)

def absolute (directory path : Path) : Path :=
  if path.isAbsolute then path.normalize else (directory.join path).normalize

end Isolate.Path
