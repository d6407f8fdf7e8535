import Isolate.Path.Basic
import Isolate.Store.Error

/-!
# Files in memory

A memory store maps keys to contents. The key of a path is its text with every backslash turned into
a separator and nothing else changed, so two spellings of one path are two keys.
-/

namespace Isolate

abbrev Bytes := List UInt8

namespace Store

/-- Files by their keys; a key occurs at most once. -/
structure Memory where
  files : List (String × Bytes) := []
  deriving Repr

namespace Memory

def keyOf (text : List Char) : List Char := text.map fun c => if c = '\\' then '/' else c

def key (path : Path) : String := String.ofList (keyOf path.text.toList)

def put (key : String) (content : Bytes) : List (String × Bytes) → List (String × Bytes)
  | [] => [(key, content)]
  | (k, old) :: rest => if k = key then (k, content) :: rest else (k, old) :: put key content rest

def find? (key : String) : List (String × Bytes) → Option Bytes
  | [] => none
  | (k, content) :: rest => if k = key then some content else find? key rest

/-- Store a file; it replaces the one under the same key. -/
def insert (store : Memory) (path : Path) (content : Bytes) : Memory :=
  ⟨put (key path) content store.files⟩

def ofList (files : List (Path × Bytes)) : Memory :=
  files.foldl (fun store (path, content) => store.insert path content) {}

def get? (store : Memory) (path : Path) : Option Bytes := find? (key path) store.files

def erase (store : Memory) (path : Path) : Memory :=
  ⟨store.files.filter fun (k, _) => k ≠ key path⟩

def read (store : Memory) (path : Path) : Except Error Bytes :=
  match store.get? path with
  | some content => .ok content
  | none => .error (.notFound (key path))

def holds (store : Memory) (path : Path) : Bool := (store.get? path).isSome

/-- Whether a file is stored for a path: nothing else is ever stored. -/
def holdsFile (store : Memory) (path : Path) : Bool := store.holds path

def size (store : Memory) : Nat := store.files.length

end Memory
end Store
end Isolate
