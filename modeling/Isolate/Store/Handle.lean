import Isolate.Store.Recording
import Mathlib.Logic.Function.Basic

/-!
# Handles on stores

A handle on a memory store points to a table of files, and one on a recording store to a table of
counters as well. A copy of a handle points to the same tables, so that what is done through the one
is seen through the other. A box around a handle hands everything on to it.
-/

namespace Isolate.Store

/-- What gives access to a store. Tables are known by their numbers. -/
inductive Handle where
  | memory (files : Nat)
  | recording (files counters : Nat)
  | boxed (held : Handle)
  deriving Repr, DecidableEq

namespace Handle

def files : Handle → Nat
  | memory files => files
  | recording files _ => files
  | boxed held => held.files

def counters? : Handle → Option Nat
  | memory _ => none
  | recording _ counters => some counters
  | boxed held => held.counters?

def inner (handle : Handle) : Handle := memory handle.files

end Handle

/-- The tables that handles point to. -/
structure Heap where
  files : Nat → Memory
  counters : Nat → Counters

namespace Heap

variable (heap : Heap)

def recording (files counters : Nat) : Recording :=
  { inner := heap.files files, reads := heap.counters counters }

/-- Read a file; it is counted on the way to the files if the handle is one on a recording store. -/
def read : Handle → Path → Except Error Bytes × Heap
  | .memory files, path => ((heap.files files).read path, heap)
  | .recording files counters, path =>
    let (result, store) := (heap.recording files counters).read path
    (result, { heap with counters := Function.update heap.counters counters store.reads })
  | .boxed held, path => read held path

def holds : Handle → Path → Bool
  | .memory files, path => (heap.files files).holds path
  | .recording files counters, path => (heap.recording files counters).holds path
  | .boxed held, path => holds held path

def holdsFile : Handle → Path → Bool
  | .memory files, path => (heap.files files).holdsFile path
  | .recording files counters, path => (heap.recording files counters).holdsFile path
  | .boxed held, path => holdsFile held path

def insert (handle : Handle) (path : Path) (content : Bytes) : Heap :=
  { heap with files :=
      Function.update heap.files handle.files ((heap.files handle.files).insert path content) }

def erase (handle : Handle) (path : Path) : Heap :=
  { heap with files :=
      Function.update heap.files handle.files ((heap.files handle.files).erase path) }

def table? (handle : Handle) : Option Counters := handle.counters?.map heap.counters

end Heap
end Isolate.Store
