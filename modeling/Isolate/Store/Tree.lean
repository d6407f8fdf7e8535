import Isolate.Store.Memory
import Isolate.Text.Utf8

/-!
# Files of a directory tree

A directory tree holds files and directories by the names on the way to them. A path is looked up
name by name from the root: `.` and an empty name stay, `..` goes up and stays at the root, and every
name but the last must lead to a directory. A separator at the end asks for a directory. What stands at
a path is asked for apart from the bytes that are there, and a store over a tree asks for both.
-/

namespace Isolate.Store

/-- What stands at a place of a tree. -/
inductive Entry where
  | file (content : Bytes)
  | directory
  deriving Repr, DecidableEq

/-- Entries by the names that lead to them; the root is a directory and not listed. -/
structure Tree where
  entries : List (List String × Entry) := []
  deriving Repr

/-- Why a path leads nowhere. -/
inductive LookupError where
  | missing
  | notADirectory
  | nameTooLong
  | embeddedNul
  deriving Repr, DecidableEq

/-- The words of the operating system for a failed lookup. -/
def LookupError.message : LookupError → String
  | missing => "No such file or directory (os error 2)"
  | notADirectory => "Not a directory (os error 20)"
  | nameTooLong => "File name too long (os error 36)"
  | embeddedNul => "file name contained an unexpected NUL byte"

/-- Why a path does not give a file. -/
inductive AccessError where
  | lookup (cause : LookupError)
  /-- There is a directory at the path, or the path asks for one. -/
  | directory
  /-- The bytes are not UTF-8. -/
  | notText
  deriving Repr, DecidableEq

namespace AccessError

/-- The words of the operating system for a failed access. -/
def message : AccessError → String
  | lookup cause => cause.message
  | directory => "Is a directory (os error 21)"
  | notText => "stream did not contain valid UTF-8"

/-- What the operating system says of a failed access. -/
def cause : AccessError → Cause
  | lookup .missing => .notFound
  | e => .other e.message

end AccessError

namespace Tree

def maxName : Nat := 255

def maxPath : Nat := 4095

def find? (tree : Tree) (names : List String) : Option Entry :=
  match names with
  | [] => some .directory
  | names => (tree.entries.find? fun (place, _) => place == names).map (·.2)

/-- The directories above a place, the nearest last. -/
def above (names : List String) : List (List String) :=
  (List.range names.length).filterMap fun n => if n = 0 then none else some (names.take n)

def ensure (tree : Tree) (names : List String) : Tree :=
  if (tree.find? names).isSome then tree else ⟨(names, .directory) :: tree.entries⟩

def insert (tree : Tree) (names : List String) (entry : Entry) : Tree :=
  let tree := (above names).foldl ensure tree
  ⟨(names, entry) :: tree.entries.filter fun (place, _) => place ≠ names⟩

/-- Follow names from a directory. The result is a place and what stands there. -/
def follow (tree : Tree) (here : List String) : List String →
    Except LookupError (List String × Entry)
  | [] => .ok (here, .directory)
  | name :: rest =>
    if name = "" ∨ name = "." then follow tree here rest
    else if name = ".." then follow tree here.dropLast rest
    else if maxName < name.utf8ByteSize then .error .nameTooLong
    else
      match tree.find? (here ++ [name]) with
      | none => .error .missing
      | some .directory => follow tree (here ++ [name]) rest
      | some (.file content) =>
        if rest.isEmpty then .ok (here ++ [name], .file content) else .error .notADirectory

def names (path : Path) : List String :=
  (Text.splitAtChar '/' path.text.toList).map String.ofList

/-- The place at which a path starts: a relative path starts at `directory`. -/
def startOf (directory : List String) (path : Path) : List String :=
  if path.isAbsolute then [] else directory

def lookup (tree : Tree) (directory : List String) (path : Path) :
    Except LookupError (List String × Entry) :=
  if path.text.toList.any (· == '\x00') then .error .embeddedNul
  else if path.text.isEmpty then .error .missing
  else if maxPath < path.text.utf8ByteSize then .error .nameTooLong
  else tree.follow (startOf directory path) (names path)

def status? (tree : Tree) (directory : List String) (path : Path) : Option Entry :=
  match tree.lookup directory path with
  | .ok (_, entry) => some entry
  | .error _ => none

def holds (tree : Tree) (directory : List String) (path : Path) : Bool :=
  (tree.status? directory path).isSome

def holdsFile (tree : Tree) (directory : List String) (path : Path) : Bool :=
  match tree.status? directory path with
  | some (.file _) => true
  | _ => false

def holdsDirectory (tree : Tree) (directory : List String) (path : Path) : Bool :=
  match tree.status? directory path with
  | some .directory => true
  | _ => false

/-- Open what stands at a path and read its bytes. A directory can be opened, but not read. -/
def load (tree : Tree) (directory : List String) (path : Path) : Except AccessError Bytes :=
  match tree.lookup directory path with
  | .error cause => .error (.lookup cause)
  | .ok (_, .directory) => .error .directory
  | .ok (_, .file bytes) => .ok bytes

/-- A place at which a directory stands, as on all the way from the root. -/
def IsDirectory (tree : Tree) (place : List String) : Prop :=
  ∀ n, tree.find? (place.take n) = some .directory

theorem isDirectory_root (tree : Tree) : tree.IsDirectory [] := fun _ => by
  rw [List.take_nil]
  rfl

end Tree

/-- A directory tree in which relative paths may start at a base. -/
structure Native where
  tree : Tree
  base : Option Path := none
  /-- The place of the current directory. -/
  directory : List String := []
  isDirectory : tree.IsDirectory directory :=
    by exact Isolate.Store.Tree.isDirectory_root _

namespace Native

def fullPath (store : Native) (path : Path) : Path :=
  match store.base with
  | some base => if path.isAbsolute then path else base.join path
  | none => path

/-- Read a file. Whether a directory is there is asked first. -/
def read (store : Native) (path : Path) : Except Error Bytes :=
  let full := store.fullPath path
  if store.tree.holdsDirectory store.directory full then .error (.notAFile full.text)
  else
    match store.tree.load store.directory full with
    | .ok bytes => .ok bytes
    | .error e => .error (.ofCause full.text e.cause)

def holds (store : Native) (path : Path) : Bool :=
  store.tree.holds store.directory (store.fullPath path)

def holdsFile (store : Native) (path : Path) : Bool :=
  store.tree.holdsFile store.directory (store.fullPath path)

end Native
end Isolate.Store
