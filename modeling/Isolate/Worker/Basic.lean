import Isolate.Globals
import Isolate.Session
import Isolate.Store.Source

/-!
# Workers

A worker is a world of running code together with what surrounds it: the linking session that resolves
its imports, the store that files are read from, and the loads that are under way. A script's worker
has no session, and all its imports are refused.
-/

namespace Isolate
open Script

inductive Load where
  /-- A specifier that a module requests, as a part of loading a graph of modules. -/
  | request (graph : Nat) (module : Nat) (specifier : Text.Units)
  /-- What running code imports. -/
  | dynamic (request : ImportRequest)

/-- The loading of a module and of all that it requests. -/
structure GraphLoad where
  /-- The promise for the end of it. -/
  promise : ObjectId
  isLoading : Bool := true
  /-- The number of modules that are to be loaded, and one. -/
  pending : Nat := 1
  /-- The modules whose requests were made. -/
  visited : List Nat := []
  deriving Inhabited

/-- A world and what surrounds it. -/
structure Worker (σ : Type) where
  world : World
  session : Option (Session Nat)
  store : σ
  /-- Loads that were asked for and have no slot yet. -/
  queue : List Load := []
  /-- Loads in their slots; an empty slot can be taken again. -/
  slots : List (Option Load) := []
  /-- The empty slots, the one that was emptied last first. -/
  free : List Nat := []
  graphs : Array GraphLoad := #[]

abbrev Hosted (σ : Type) := EStateM Abrupt (Worker σ)

namespace Hosted

variable {σ : Type}

/-- Run an action on the world. What it imports is queued. -/
def lift {α : Type} (action : Action α) : Hosted σ α := fun worker =>
  let settleIn (w : World) : Worker σ :=
    { worker with
      world := { w with requests := [] }
      queue := worker.queue ++ w.requests.map .dynamic }
  match action worker.world with
  | .ok value w => .ok value (settleIn w)
  | .error abrupt w => .error abrupt (settleIn w)

def modifySession (f : Session Nat → Session Nat) : Hosted σ PUnit :=
  modify fun worker => { worker with session := worker.session.map f }

def modifyGraph (graph : Nat) (f : GraphLoad → GraphLoad) : Hosted σ PUnit :=
  modify fun worker => { worker with graphs := worker.graphs.modify graph f }

def graph (id : Nat) : Hosted σ GraphLoad := do pure ((← get).graphs.getD id default)

def enqueue (load : Load) : Hosted σ PUnit :=
  modify fun worker => { worker with queue := worker.queue ++ [load] }

end Hosted
end Isolate
