/-!
# One load per key at a time

While the load of a key is running, later requests for the key wait for its result and start no load
of their own. A request is a future, which advances only when it is polled. The first poll makes it
the *leader* of its key, which runs the load, or a *waiter* registered with the leader. When the load
ends, the entry of the key goes away and every registered waiter is sent the value; when the leader
is dropped, the entry goes away and the waiters are cancelled, and the first of them to be polled
leads again. Nothing is kept of a load that has ended.
-/

namespace Isolate

/-- How far a future has come. -/
inductive Flight.Phase (Value : Type) where
  /-- Not polled yet. -/
  | fresh
  /-- Running the load of its key. -/
  | leading
  /-- Registered with the leader of its key. -/
  | waiting
  /-- Sent the value of the load that it waited for, and not polled since. -/
  | sent (value : Value)
  /-- The leader that it waited for was dropped, and it was not polled since. -/
  | cancelled
  /-- Completed with a value. -/
  | done (value : Value)
  | dropped
  deriving Repr, DecidableEq

structure Flight.Future (Key Value : Type) where
  key : Key
  phase : Flight.Phase Value
  /-- What the future's own load ends with, once that is known. -/
  outcome : Option Value
  deriving Repr, DecidableEq

/-- All futures in the order of their creation, and for every key that is loading the futures that
registered with its leader. -/
structure Flight (Key Value : Type) where
  futures : List (Flight.Future Key Value) := []
  table : List (Key × List Nat) := []
  /-- The futures whose load was started, in order. -/
  loads : List Nat := []
  deriving Repr

namespace Flight

variable {Key Value : Type} [DecidableEq Key]

def Phase.isLive : Phase Value → Bool
  | .done _ => false
  | .dropped => false
  | _ => true

/-- Create a future. With an outcome its load ends as soon as it is polled. -/
def start (f : Flight Key Value) (key : Key) (outcome : Option Value) : Flight Key Value :=
  { f with futures := f.futures ++ [⟨key, .fresh, outcome⟩] }

def nextId (f : Flight Key Value) : Nat := f.futures.length

def setPhase (f : Flight Key Value) (id : Nat) (phase : Phase Value) : Flight Key Value :=
  { f with futures := f.futures.modify id fun future => { future with phase } }

def entry? (f : Flight Key Value) (key : Key) : Option (List Nat) := f.table.lookup key

def isInFlight (f : Flight Key Value) (key : Key) : Bool := (f.entry? key).isSome

def size (f : Flight Key Value) : Nat := f.table.length

def keys (f : Flight Key Value) : List Key := f.table.map (·.1)

def removeEntry (f : Flight Key Value) (key : Key) : Flight Key Value :=
  { f with table := f.table.filter fun (k, _) => k ≠ key }

def register (f : Flight Key Value) (key : Key) (id : Nat) : Flight Key Value :=
  { f with
    table := f.table.map fun (k, waiters) => (k, if k = key then waiters ++ [id] else waiters) }

/-- Move the futures that still wait to another phase. -/
def notify (f : Flight Key Value) (waiters : List Nat) (phase : Phase Value) : Flight Key Value :=
  waiters.foldl (fun f id =>
    match f.futures[id]?.map Future.phase with
    | some .waiting => f.setPhase id phase
    | _ => f) f

/-- End the leader's entry and tell its waiters. -/
def closeEntry (f : Flight Key Value) (key : Key) (phase : Phase Value) : Flight Key Value :=
  let waiters := (f.entry? key).getD []
  (f.removeEntry key).notify waiters phase

def pollLeader (f : Flight Key Value) (id : Nat) (future : Future Key Value) :
    Option Value × Flight Key Value :=
  match future.outcome with
  | none => (none, f)
  | some value => (some value, (f.closeEntry future.key (.sent value)).setPhase id (.done value))

/-- Lead the load of a key, or wait for the future that does. -/
def enter (f : Flight Key Value) (id : Nat) (future : Future Key Value) :
    Option Value × Flight Key Value :=
  if f.isInFlight future.key then (none, (f.register future.key id).setPhase id .waiting)
  else
    let f := { f with table := f.table ++ [(future.key, [])], loads := f.loads ++ [id] }
    (f.setPhase id .leading).pollLeader id future

/-- Poll a future; the result is its value if it completes. -/
def poll (f : Flight Key Value) (id : Nat) : Option Value × Flight Key Value :=
  match f.futures[id]? with
  | none => (none, f)
  | some future =>
    match future.phase with
    | .fresh => f.enter id future
    | .cancelled => f.enter id future
    | .leading => f.pollLeader id future
    | .waiting => (none, f)
    | .sent value => (some value, f.setPhase id (.done value))
    | .done _ => (none, f)
    | .dropped => (none, f)

def isLive (f : Flight Key Value) (id : Nat) : Bool :=
  match f.futures[id]? with
  | some future => future.phase.isLive
  | none => false

/-- Let the load of a future end with a value. That is possible once, while the future can still
advance. -/
def release (f : Flight Key Value) (id : Nat) (value : Value) : Bool × Flight Key Value :=
  match f.futures[id]? with
  | some ⟨_, phase, none⟩ =>
    if phase.isLive then
      (true, { f with futures := f.futures.modify id fun u => { u with outcome := some value } })
    else (false, f)
  | _ => (false, f)

/-- Drop a future. -/
def drop (f : Flight Key Value) (id : Nat) : Flight Key Value :=
  match f.futures[id]? with
  | none => f
  | some future =>
    match future.phase with
    | .done _ => f
    | .leading => (f.closeEntry future.key .cancelled).setPhase id .dropped
    | _ => f.setPhase id .dropped

end Flight
end Isolate
