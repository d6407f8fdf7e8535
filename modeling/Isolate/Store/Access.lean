import Isolate.Store.Tree

/-!
# Text files of a directory tree

A file is read as a text when its bytes are UTF-8, and a file is made ready for writing at its end by
putting an empty one where nothing is. Both start from a current directory.
-/

namespace Isolate.Store

namespace Tree

def readText (tree : Tree) (directory : List String) (path : Path) : Except AccessError String :=
  match tree.load directory path with
  | .error cause => .error cause
  | .ok bytes =>
    match Text.Utf8.decode bytes with
    | .ok text => .ok (String.ofList text)
    | .error _ => .error .notText

def pathOf (place : List String) : Path := ⟨"/" ++ String.intercalate "/" place⟩

/-- The path without steps back, of whatever stands at a path. -/
def canonical (tree : Tree) (directory : List String) (path : Path) : Except LookupError Path :=
  (tree.lookup directory path).map fun (place, _) => pathOf place

/-- Make sure that there is a file to write to; the directory that holds it must be there. A
separator at the end asks for a directory. -/
def ensureFile (tree : Tree) (directory : List String) (path : Path) : Except AccessError Tree :=
  let reversed := (names path).reverse
  let last := reversed.headD ""
  let above := (reversed.dropWhile (· = "")).drop 1
  match tree.lookup directory path with
  | .error .embeddedNul => .error (.lookup .embeddedNul)
  | .error .nameTooLong => .error (.lookup .nameTooLong)
  | .ok (_, .directory) => .error .directory
  | .ok (_, .file _) => .ok tree
  | .error cause =>
    if path.text.isEmpty then .error (.lookup cause)
    else
      match tree.follow (startOf directory path) above.reverse with
      | .error cause => .error (.lookup cause)
      | .ok (_, .file _) => .error (.lookup .notADirectory)
      | .ok (place, .directory) =>
        if last = "" ∨ last = "." ∨ last = ".." then .error .directory
        else .ok (tree.insert (place ++ [last]) (.file []))

end Tree
end Isolate.Store
