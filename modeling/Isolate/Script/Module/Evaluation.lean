import Isolate.Script.Machine
import Isolate.Script.Module.Linking

/-!
# Evaluating modules

A module is evaluated once, after the modules that it requests. Modules that request each other in a
cycle have ended together, when the one at which the cycle was entered ends. A module that awaits, and
every module that depends on it, waits for promises instead of ending at once.
-/

namespace Isolate.Script

/-- The default export of a CommonJS module: what its function leaves in the member `exports` of the
module object. -/
def callWrapper (wrapper : Value) : Action Value := do
  if !(← isCallable wrapper) then failWith .type "CommonJS wrapper did not evaluate to a function"
  let exports : Value := .object (← newObject)
  let module ← newObject
  let name := Text.Units.ofString "exports"
  setMember true (.object module) name exports
  let _ ← invoke wrapper .undefined [exports, .object module]
  getMember (.object module) name

def moduleActivation (id unit : Nat) : Action Activation := do
  let w ← get
  let found := w.units[unit]?
  let code := (found.bind (·.functions.back?)).getD {}
  pure
    { unit, code, origin := (found.map (·.origin)).getD .unnamed, scope := (w.module id).scope
      this := .undefined }

/-- Note that a module's own code begins to run. -/
def noteExecution (id : Nat) : Action PUnit := modify fun w => { w with executed := id :: w.executed }

def runModule (id : Nat) : Action PUnit := do
  noteExecution id
  let module := (← get).module id
  let exportDefault (value : Value) : Action PUnit :=
    putBinding module.scope defaultBinding (.held (some value) .fixed)
  match module.body with
  | .code unit => do
    let a ← moduleActivation id unit
    let _ ← deeper (perform stepLimit (.run a))
  | .commonJs wrapper => do exportDefault (← callWrapper wrapper)
  | .fixed value => exportDefault value

def runWaiting (id : Nat) : Action PUnit := do
  match ((← get).module id).body with
  | .code unit => do
    noteExecution id
    let promise ← newPromise
    subscribe promise (.evaluated id)
    let a ← moduleActivation id unit
    let _ ← deeper (perform stepLimit (.advance a promise))
  | _ => runModule id

def beginWait (id : Nat) : Action PUnit :=
  modify fun w =>
    { w with
      modules := w.modules.modify id fun m => { m with waitOrder := some w.waits }
      waits := w.waits + 1 }

def Module.isWaiting (m : Module) : Bool := m.waitOrder.isSome && m.status ≠ .evaluated

/-- The modules from a module on, in the list of those whose evaluation has begun and not ended. -/
def takeCycle (id : Nat) : List Nat → List Nat × List Nat
  | [] => ([], [])
  | other :: rest =>
    if other = id then ([other], rest)
    else
      let (cycle, below) := takeCycle id rest
      (other :: cycle, below)

/-- Take into account how far the evaluation of a requested module has come. -/
def joinRequested (id other : Nat) : Action PUnit := do
  let w ← get
  let found := w.module other
  match found.body with
  | .code _ => do
    let awaited := if found.status = .evaluating then other else found.cycleRoot.getD other
    if found.status = .evaluating then
      modifyModule id fun m => { m with lowestIndex := min m.lowestIndex found.lowestIndex }
    let target := w.module awaited
    if found.status ≠ .evaluating then
      match target.failure with
      | some reason => throw (.thrown reason none)
      | none => pure ()
    if target.isWaiting then do
      modifyModule id fun m => { m with pending := m.pending + 1 }
      modifyModule awaited fun m => { m with waiters := m.waiters ++ [id] }
  | _ => pure ()

def endCycle (id : Nat) (begun : List Nat × Nat) : Action (List Nat × Nat) := do
  let now := (← get).module id
  if now.lowestIndex = now.depthIndex then do
    let (cycle, below) := takeCycle id begun.1
    cycle.forM fun other => modifyModule other fun m =>
      { m with
        status := if m.waitOrder.isNone then .evaluated else .evaluatingAsync
        cycleRoot := some id }
    pure (below, begun.2)
  else pure begun

def runRequesting (id : Nat) : Action PUnit := do
  let now := (← get).module id
  if now.pending > 0 || now.awaits then do
    beginWait id
    if now.pending = 0 then runWaiting id
  else runModule id

/-- Run a module without code of its own, and note whether that has failed. -/
def runPlain (id : Nat) : Action PUnit := do
  modifyModule id fun m => { m with status := .evaluated }
  match ← attempt (runModule id) with
  | .ok _ => pure ()
  | .error reason => do
    modifyModule id fun m => { m with failure := some reason }
    throw (.thrown reason none)

def recallFailure (id : Nat) : Action PUnit := do
  match ((← get).module id).failure with
  | some reason => throw (.thrown reason none)
  | none => pure ()

/-- Evaluate a module after those that it requests. The state is the list of modules whose evaluation
has begun and not ended, innermost first, and their number so far. -/
def evaluateInner : (fuel : Nat) → (id : Nat) → (begun : List Nat × Nat) → Action (List Nat × Nat)
  | 0, _, _ => throw .exhausted
  | fuel + 1, id, (stack, index) => do
    let module := (← get).module id
    match module.body, module.status with
    | .code _, .linked => do
      modifyModule id fun m =>
        { m with status := .evaluating, depthIndex := index, lowestIndex := index }
      let begun ← module.requests.foldlM (fun begun specifier => do
        match (← get).requested? id specifier with
        | none => pure begun
        | some other => do
          let begun ← evaluateInner fuel other begun
          joinRequested id other
          pure begun) (id :: stack, index + 1)
      runRequesting id
      endCycle id begun
    | .code _, _ | _, .evaluated => do
      recallFailure id
      pure (stack, index)
    | _, _ => do
      runPlain id
      pure (stack, index)

def noteFailure (reason : Value) (id : Nat) : Action PUnit :=
  modifyModule id fun m => { m with status := .evaluated, failure := some reason }

def evaluateModule (id : Nat) : Action ObjectId := do
  let w ← get
  let module := w.module id
  let root :=
    if module.status = .evaluatingAsync || module.status = .evaluated then module.cycleRoot.getD id
    else id
  match (w.module root).result with
  | some promise => pure promise
  | none => do
    let promise ← newPromise
    modifyModule root fun m => { m with result := some promise }
    match ← attempt (evaluateInner (w.modules.size + 1) root ([], 0)) with
    | .ok _ => do
      if !((← get).module root).isWaiting then settleNew promise (.ok .undefined)
    | .error reason => do
      for other in List.range w.modules.size do
        if ((← get).module other).status = .evaluating then noteFailure reason other
      noteFailure reason root
      settleNew promise (.error reason)
    pure promise

def rejectWaiting : (fuel : Nat) → (reason : Value) → (id : Nat) → Action PUnit
  | 0, _, _ => pure ()
  | fuel + 1, reason, id => do
    let module := (← get).module id
    if module.status = .evaluated then pure ()
    else do
      noteFailure reason id
      module.waiters.forM (rejectWaiting fuel reason)
      match module.result with
      | some promise => settle promise (.error reason)
      | none => pure ()

/-- Note that a module no longer waits, for the modules that wait for it. The result are those of them
that wait for nothing any more, and those in turn that they need not keep waiting. -/
def releaseWaiters : (fuel : Nat) → (released : List Nat) → (id : Nat) → Action (List Nat)
  | 0, released, _ => pure released
  | fuel + 1, released, id => do
    let mut released := released
    for other in ((← get).module id).waiters do
      let w ← get
      let module := w.module other
      let failed := (w.module (module.cycleRoot.getD other)).failure.isSome
      if !released.contains other && !failed then do
        modifyModule other fun m => { m with pending := m.pending - 1 }
        if module.pending = 1 then do
          released := released ++ [other]
          if !module.awaits then released ← releaseWaiters fuel released other
    pure released

def insertWaiting (w : World) (id : Nat) : List Nat → List Nat
  | [] => [id]
  | other :: rest =>
    if (w.module id).waitOrder.getD 0 < (w.module other).waitOrder.getD 0 then id :: other :: rest
    else other :: insertWaiting w id rest

def endWaiting (id : Nat) : Action PUnit := do
  modifyModule id fun m => { m with status := .evaluated }
  match ((← get).module id).result with
  | some promise => settle promise (.ok .undefined)
  | none => pure ()

/-- Go on with the evaluation of a module whose own code waited. -/
def continueModule (id : Nat) (outcome : Except Value Value) : Action PUnit := do
  let w ← get
  let fuel := w.modules.size + 1
  match outcome with
  | .error reason => rejectWaiting fuel reason id
  | .ok _ =>
    if (w.module id).status = .evaluated then pure ()
    else do
      endWaiting id
      let released ← releaseWaiters fuel [] id
      let order := released.foldl (fun sorted other => insertWaiting w other sorted) []
      for other in order do
        let module := (← get).module other
        if module.status = .evaluated then pure ()
        else if module.awaits then runWaiting other
        else
          match ← attempt (runModule other) with
          | .error reason => rejectWaiting fuel reason other
          | .ok _ => endWaiting other

end Isolate.Script
