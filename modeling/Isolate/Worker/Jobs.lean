import Isolate.Worker.Loading

/-!
# Jobs

When code has run, the loads and the jobs that it left behind are done until none is left: in each
round one load, that in the lowest slot, and then all jobs that wait at that moment.
-/

namespace Isolate
open Script

def Script.finishImport (module : Nat) (result : ObjectId) : Action PUnit := do
  let evaluate : Action ObjectId := do
    linkModule module
    evaluateModule module
  match ← attempt evaluate with
  | .error reason => settle result (.error reason)
  | .ok promise => subscribe promise (.imported module result)

def Script.runJob (job : Job) : Action PUnit := do
  modify fun w => { w with here := none, calls := [] }
  match job with
  | .follow promise object method => runFollow invoke promise object method
  | .react (.functions onFulfilled onRejected result) outcome =>
    runFunctions invoke onFulfilled onRejected result outcome
  | .react (.resume activation) outcome => resume activation outcome
  | .react (.evaluated module) outcome => continueModule module outcome
  | .react (.loaded module result) outcome =>
    match outcome with
    | .error reason => settle result (.error reason)
    | .ok _ => finishImport module result
  | .react (.imported module result) outcome =>
    match outcome with
    | .error reason => settle result (.error reason)
    | .ok _ => do
      match ← attempt (spaceOf module) with
      | .error reason => settle result (.error reason)
      | .ok space => resolvePromise result (.object space)

namespace Hosted

variable {σ : Type}

/-- Give a load a slot: the one that was emptied last, or a new one. -/
def takeSlot (worker : Worker σ) (load : Load) : Worker σ :=
  match worker.free with
  | slot :: rest => { worker with slots := worker.slots.set slot (some load), free := rest }
  | [] => { worker with slots := worker.slots ++ [some load] }

def takeSlots (worker : Worker σ) : Worker σ :=
  worker.queue.foldl takeSlot { worker with queue := [] }

def lowestLoad? (slots : List (Option Load)) : Option (Nat × Load) :=
  slots.zipIdx.findSome? fun (load, slot) => load.map (slot, ·)

def clear (worker : Worker σ) : Worker σ :=
  { worker with
    world := { worker.world with jobs := [], requests := [] }
    queue := [], slots := [], free := [] }

variable [Store.Source σ]

/-- Do one round. The result says whether there was anything to do. -/
def round : Hosted σ Bool := do
  modify takeSlots
  let worker ← get
  match lowestLoad? worker.slots, worker.world.jobs with
  | none, [] => pure false
  | load, _ => do
    match load with
    | some (slot, load) => do
      runLoad load
      modify fun worker =>
        { worker with slots := worker.slots.set slot none, free := slot :: worker.free }
    | none => pure ()
    let jobs := (← get).world.jobs
    modify fun worker => { worker with world := { worker.world with jobs := [] } }
    jobs.forM fun job => lift (runJob job)
    pure true

def rounds : (fuel : Nat) → Hosted σ PUnit
  | 0 => throw .exhausted
  | fuel + 1 => do
    if ← round then rounds fuel

/-- Do all that is left to do. A failure that no code can deal with ends it. -/
def drain : Hosted σ PUnit := fun worker =>
  match rounds stepLimit worker with
  | .ok _ worker => .ok ⟨⟩ worker
  | .error abrupt worker => .error abrupt (clear worker)

/-- Do all that is left to do and look at what became of a promise. -/
def settled (promise : ObjectId) : Hosted σ PUnit := do
  drain
  match (← get).world.promiseState? promise with
  | some (.fulfilled _) => pure ()
  | some (.rejected reason) => throw (.thrown reason none)
  | _ => do
    let error ← lift (newFailure .error "top-level evaluation never settled")
    throw (.thrown error none)

end Hosted
end Isolate
