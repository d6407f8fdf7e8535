import Isolate.Store.Memory

/-!
# Counting reads

A recording store counts, for every path, how often a file was asked for at that path, whether the
read succeeded or not. Paths with equal components share a counter, which keeps the spelling that
came first. Nothing else is counted.
-/

namespace Isolate.Store

abbrev Counters := List (Path × Nat)

namespace Counters

def count (path : Path) : Counters → Counters
  | [] => [(path, 1)]
  | (p, n) :: rest =>
    match path.compare p with
    | .lt => (path, 1) :: (p, n) :: rest
    | .eq => (p, n + 1) :: rest
    | .gt => (p, n) :: count path rest

def get (path : Path) : Counters → Nat
  | [] => 0
  | (p, n) :: rest => if path.same p then n else get path rest

def total (counters : Counters) : Nat := (counters.map (·.2)).foldr (· + ·) 0

end Counters

/-- A store behind counters. -/
structure Recording where
  inner : Memory
  reads : Counters := []

namespace Recording

def read (store : Recording) (path : Path) : Except Error Bytes × Recording :=
  (store.inner.read path, { store with reads := store.reads.count path })

def holds (store : Recording) (path : Path) : Bool := store.inner.holds path

def holdsFile (store : Recording) (path : Path) : Bool := store.inner.holdsFile path

end Recording
end Isolate.Store
