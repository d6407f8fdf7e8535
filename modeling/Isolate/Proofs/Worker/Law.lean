import Isolate.Proofs.Script.Modules

/-!
# Laws of workers

A worker changes its world by what its code does and by what the host does: it loads files, links and
evaluates modules, and forgets what is done. A relation between worlds that holds across all of that is a
law of the worker, even if it does not hold across every single move of linking and evaluation; if it
does, it is a law of the host. Apart from the world a worker changes its session, by imports and by
forgetting failures, and what it has left to do. A relation between workers that holds across each of
these changes holds across all that a worker does.
-/

namespace Isolate

open Script

/-- A law that holds across what the host does to a world, too. -/
class Script.World.IsHostLaw (R : World → World → Prop) : Prop extends World.IsEvaluationLaw R where
  requests (w : World) (requests : List ImportRequest) : R w { w with requests }
  unit (w : World) (unit : CodeUnit) : R w { w with units := w.units.push unit }
  module (w : World) (module : Module) : R w { w with modules := w.modules.push module }
  /-- The host hands over what its functions recorded elsewhere. -/
  log (w : World) (log : List Text.Units) : R w { w with log }

/-- A law of running code that holds across all that a worker does with modules, each time as a whole. -/
class Script.World.IsWorkerLaw (R : World → World → Prop) : Prop extends World.IsCodeLaw R where
  requests (w : World) (requests : List ImportRequest) : R w { w with requests }
  unit (w : World) (unit : CodeUnit) : R w { w with units := w.units.push unit }
  log (w : World) (log : List Text.Units) : R w { w with log }
  addModule (body : ModuleBody) (tree : Option ModuleTree) : Obeys R (addModule body tree)
  /-- A specifier in a module comes to stand for a module that was loaded. -/
  loaded (id : Nat) (specifier : Text.Units) (record : Nat) :
    Obeys R (modifyModule id fun m => { m with loaded := m.loaded ++ [(specifier, record)] })
  linkModule (id : Nat) : Obeys R (linkModule id)
  evaluateModule (id : Nat) : Obeys R (evaluateModule id)
  continueModule (id : Nat) (outcome : Except Value Value) : Obeys R (continueModule id outcome)
  spaceOf (id : Nat) : Obeys R (spaceOf id)

def Script.Lawful {α : Type} (action : Action α) : Prop :=
  ∀ (R : World → World → Prop) [World.IsWorkerLaw R], Obeys R action

namespace Script

/-- Adding a module obeys every law of linking that lets a module come. -/
theorem obeys_addModule_of {R : World → World → Prop} [law : World.IsLaw R]
    (comes : ∀ (w : World) (module : Module), R w { w with modules := w.modules.push module })
    (body : ModuleBody) (tree : Option ModuleTree) : Obeys R (addModule body tree) := by
  refine .bind (obeys_newScope _) fun scope => .get_bind fun w => ?_
  cases tree with
  | none =>
    have declared : Obeys R
        (putBinding scope defaultBinding (.held none .fixed) >>= fun _ => pure w.modules.size) :=
      .bind (obeys_putBinding _ _ _) fun _ => .pure _
    exact law.trans _ _ _ (comes w _) (declared _)
  | some tree => exact comes w _

theorem obeys_addModule {R : World → World → Prop} [law : World.IsHostLaw R] (body : ModuleBody)
    (tree : Option ModuleTree) : Obeys R (addModule body tree) :=
  obeys_addModule_of law.module body tree

instance {R : World → World → Prop} [law : World.IsHostLaw R] : World.IsWorkerLaw R where
  requests := law.requests
  unit := law.unit
  log := law.log
  addModule := obeys_addModule
  loaded _ _ _ := obeys_modifyModule _ _
  linkModule := obeys_linkModule
  evaluateModule := obeys_evaluateModule
  continueModule := obeys_continueModule
  spaceOf := obeys_spaceOf

end Script

section Loaders

variable {α : Type} {R : World → World → Prop} [law : World.IsWorkerLaw R]

namespace Script

@[grind ←] theorem obeys_addUnit (unit : CodeUnit) : Obeys R (addUnit unit) :=
  fun w => law.unit w unit

omit law in
@[grind ←] theorem obeys_capture {action : Action α} (h : Obeys R action) :
    Obeys R (capture action) := by
  intro w
  have ran := h w
  unfold left at ran ⊢
  unfold capture
  cases done : action w with
  | ok value after => simpa [done] using ran
  | error abrupt after => simpa [done] using ran

end Script

namespace Loader

@[grind ←] theorem obeys_fixedModule (value : Value) : Obeys R (fixedModule value) :=
  .bind (law.addModule _ _) fun _ => .pure _

@[grind ←] theorem obeys_esModule (path : Path) (bytes : Bytes) : Obeys R (esModule path bytes) := by
  have adds (body : ModuleBody) (tree : Option ModuleTree) : Obeys R (addModule body tree) :=
    law.addModule body tree
  unfold esModule
  grind

@[grind ←] theorem obeys_commonJs (path : Path) (bytes : Bytes) : Obeys R (commonJs path bytes) := by
  unfold commonJs
  extract_lets unwrapped
  split
  · exact .pure _
  · extract_lets text
    split
    · exact .pure _
    · refine .bind (obeys_addUnit _) fun unit =>
        .bind (obeys_capture (obeys_runProgram _)) fun ran => ?_
      split
      · exact .bind .get fun _ => .pure _
      · exact .bind (law.addModule _ _) fun _ => .pure _

@[grind ←] theorem obeys_text (path : Path) (bytes : Bytes) : Obeys R (text path bytes) := by
  unfold text
  grind

@[grind ←] theorem obeys_data (bytes : Bytes) : Obeys R (data bytes) :=
  .bind (obeys_allocate _) fun _ => obeys_fixedModule _

@[grind ←] theorem obeys_describeExtern (members : List (String × String)) :
    Obeys R (describeExtern members) := by
  unfold describeExtern
  grind

@[grind ←] theorem obeys_compiledWasm (path : Path) (bytes : Bytes) :
    Obeys R (compiledWasm path bytes) := by
  unfold compiledWasm
  split
  · exact .pure _
  · have listed (items : List Value) : Obeys R (do
        pure { value := .object (← newArray items), writable := false, configurable := false } :
          Action Property) := .bind (obeys_newArray _) fun _ => .pure _
    refine .bind (.mapM _ fun _ => obeys_describeExtern _) fun exports =>
      .bind (.mapM _ fun _ => obeys_describeExtern _) fun imports => ?_
    exact .bind (listed _) fun _ => .bind (listed _) fun _ =>
      .bind (obeys_allocate _) fun _ => obeys_fixedModule _

/-- Loading a file obeys every law. -/
@[grind ←] theorem obeys_load (path : Path) (kind : Kind.Supported) (bytes : Bytes) :
    Obeys R (load path kind bytes) := by
  cases kind with
  | esModule => exact obeys_esModule path bytes
  | commonJS => exact obeys_commonJs path bytes
  | text => exact obeys_text path bytes
  | data => exact obeys_data bytes
  | compiledWasm => exact obeys_compiledWasm path bytes

end Loader

end Loaders

section Jobs

/-- A law of running code that holds across all that jobs do with modules. -/
class Script.World.IsJobLaw (R : World → World → Prop) : Prop extends World.IsCodeLaw R where
  linkModule (id : Nat) : Obeys R (linkModule id)
  evaluateModule (id : Nat) : Obeys R (evaluateModule id)
  continueModule (id : Nat) (outcome : Except Value Value) : Obeys R (continueModule id outcome)
  spaceOf (id : Nat) : Obeys R (spaceOf id)

instance {R : World → World → Prop} [law : World.IsWorkerLaw R] : World.IsJobLaw R where
  linkModule := law.linkModule
  evaluateModule := law.evaluateModule
  continueModule := law.continueModule
  spaceOf := law.spaceOf

instance {R : World → World → Prop} [law : World.IsEvaluationLaw R] : World.IsJobLaw R where
  linkModule := obeys_linkModule
  evaluateModule := obeys_evaluateModule
  continueModule := obeys_continueModule
  spaceOf := obeys_spaceOf

namespace Script

variable {R : World → World → Prop} [law : World.IsJobLaw R]

theorem obeys_finishImport (module : Nat) (result : ObjectId) :
    Obeys R (finishImport module result) := by
  refine .bind (obeys_attempt (.bind (law.linkModule _) fun _ => law.evaluateModule _))
    fun outcome => ?_
  split
  · exact obeys_settle _ _
  · exact obeys_subscribe _ _

/-- A job obeys every law. -/
theorem obeys_runJob (job : Job) : Obeys R (runJob job) := by
  have continues := law.continueModule
  have finishes (module : Nat) (result : ObjectId) : Obeys R (finishImport module result) :=
    obeys_finishImport module result
  have spaces := law.spaceOf
  refine .bind (fun w => law.place w [] none w.running) fun _ => ?_
  split <;> grind

end Script

end Jobs

section Workers

variable {σ α : Type} [Store.Source σ]

/-- A relation between workers that holds across all that a worker does. -/
class Worker.IsLaw (S : Worker σ → Worker σ → Prop) : Prop extends IsPreorder (Worker σ) S where
  lift {α : Type} {action : Action α} (lawful : Lawful action) : Obeys S (Hosted.lift action)
  importModule (referrer : Origin) (specifier : Text.Units) :
    Obeys S (Hosted.importModule referrer specifier)
  clearFailures (worker : Worker σ) :
    S worker { worker with session := worker.session.map (·.clearFailures) }
  /-- What is left to do changes. -/
  tasks (worker : Worker σ) (queue : List Load) (slots : List (Option Load)) (free : List Nat)
    (graphs : Array GraphLoad) : S worker { worker with queue, slots, free, graphs }
  /-- The world forgets jobs and requests. -/
  forget (worker : Worker σ) (jobs : List Job) (requests : List ImportRequest) :
    S worker { worker with world := { worker.world with jobs, requests } }

namespace Hosted

/-- The end of a visit: one module less is pending, and the graph is loaded when none is left. -/
def finishVisit (id : Nat) : Hosted σ PUnit := do
  modifyGraph id fun g => { g with pending := g.pending - 1 }
  let graph ← Hosted.graph id
  if graph.pending = 0 then
    modifyGraph id fun g => { g with isLoading := false }
    lift (settle graph.promise (.ok .undefined))

omit [Store.Source σ] in
theorem visit_succ (fuel id module : Nat) :
    (visit (fuel + 1) id module : Hosted σ PUnit) = (do
      let found := (← get).world.module module
      let graph ← graph id
      if !found.requests.isEmpty && found.status = .unlinked && !graph.visited.contains module then
        modifyGraph id fun g =>
          { g with visited := module :: g.visited, pending := g.pending + found.requests.length }
        found.requests.forM fun specifier =>
          match found.loaded.lookup specifier with
          | some other => visit fuel id other
          | none => enqueue (.request id module specifier)
        finishVisit id
      else finishVisit id) := rfl

/-- The end of a round: all jobs that wait at that moment are done. -/
def runJobs : Hosted σ Bool := do
  let jobs := (← get).world.jobs
  modify fun worker => { worker with world := { worker.world with jobs := [] } }
  jobs.forM fun job => lift (runJob job)
  pure true

theorem round_eq : (round : Hosted σ Bool) = (do
    modify takeSlots
    let worker ← get
    match lowestLoad? worker.slots, worker.world.jobs with
    | none, [] => pure false
    | load, _ =>
      match load with
      | some (slot, load) => do
        runLoad load
        modify fun worker =>
          { worker with slots := worker.slots.set slot none, free := slot :: worker.free }
        runJobs
      | none => runJobs) := rfl

/-- Doing all that is left ends with the rounds, or forgets the rest when they fail. -/
theorem obeys_drain_of {S : Worker σ → Worker σ → Prop} [order : IsPreorder (Worker σ) S]
    (rounds : Obeys S (rounds stepLimit : Hosted σ PUnit)) (clears : ∀ worker, S worker (clear worker)) :
    Obeys S (drain : Hosted σ PUnit) := by
  intro worker
  have done := rounds worker
  cases result : Hosted.rounds stepLimit worker with
  | ok value after =>
    have same : drain worker = .ok ⟨⟩ after := by rw [drain, result]
    rw [left_of_ok result] at done
    rw [left_of_ok same]
    exact done
  | error abrupt after =>
    have same : drain worker = .error abrupt (clear after) := by rw [drain, result]
    rw [left_of_error result] at done
    rw [left_of_error same]
    exact order.trans _ _ _ done (clears after)

variable {S : Worker σ → Worker σ → Prop} [law : Worker.IsLaw S]

omit [Store.Source σ] in
/-- What an action leaves of a world is all that matters, not how the host comes to it. -/
theorem lift_world (action : Action α) (worker : Worker σ) :
    { left (lift action) worker with
      world := { (left (lift action) worker).world with
        requests := (left action worker.world).requests }
      queue := worker.queue } =
      { worker with world := left action worker.world } := by
  unfold left lift
  cases action worker.world <;> rfl

/-- An action that is not the host's changes the world as the law allows. -/
theorem obeys_world {action : Action α} (lawful : Lawful action) (worker : Worker σ) :
    S worker { worker with world := left action worker.world } := by
  have lifted := law.lift lawful worker
  have queued := law.tasks (left (lift action) worker) worker.queue
    (left (lift action) worker).slots (left (lift action) worker).free
    (left (lift action) worker).graphs
  rw [← lift_world]
  exact law.trans _ _ _ lifted (law.trans _ _ _ queued (law.forget _ _ _))

theorem obeys_modifyGraph (id : Nat) (f : GraphLoad → GraphLoad) :
    Obeys S (modifyGraph id f : Hosted σ PUnit) :=
  fun worker => law.tasks worker worker.queue worker.slots worker.free _

theorem obeys_graph (id : Nat) : Obeys S (graph id : Hosted σ GraphLoad) :=
  .bind .get fun _ => .pure _

theorem obeys_enqueue (load : Load) : Obeys S (enqueue load : Hosted σ PUnit) :=
  fun worker => law.tasks worker _ worker.slots worker.free worker.graphs

theorem obeys_settle (promise : ObjectId) (outcome : Except Value Value) :
    Obeys S (lift (settle promise outcome) : Hosted σ PUnit) :=
  law.lift fun _ _ => Script.obeys_settle _ _

theorem obeys_failGraph (id : Nat) (reason : Value) :
    Obeys S (failGraph id reason : Hosted σ PUnit) := by
  refine .bind (obeys_graph id) fun graph => ?_
  split
  · exact .bind (obeys_modifyGraph id _) fun _ => obeys_settle _ _
  · exact .pure _

theorem obeys_finishVisit (id : Nat) : Obeys S (finishVisit id : Hosted σ PUnit) := by
  refine .bind (obeys_modifyGraph id _) fun _ => .bind (obeys_graph id) fun graph => ?_
  split
  · exact .bind (obeys_modifyGraph id _) fun _ => obeys_settle _ _
  · exact .pure _

theorem obeys_visit (fuel id module : Nat) : Obeys S (visit fuel id module : Hosted σ PUnit) := by
  induction fuel generalizing module with
  | zero => exact .throw _
  | succ fuel ih =>
    rw [visit_succ]
    refine .bind .get fun worker => .bind (obeys_graph id) fun graph => ?_
    split
    · refine .bind (obeys_modifyGraph id _) fun _ => .bind (.forM _ fun specifier => ?_)
        fun _ => obeys_finishVisit id
      split
      · exact ih _
      · exact obeys_enqueue _
    · exact obeys_finishVisit id

theorem obeys_loadGraph (module : Nat) : Obeys S (loadGraph module : Hosted σ ObjectId) := by
  refine .bind (law.lift fun _ _ => obeys_newPromise) fun promise => .get_bind fun worker => ?_
  -- The graph is added to the worker that was looked at, which is what the visit begins with.
  have pushed := law.tasks worker worker.queue worker.slots worker.free (worker.graphs.push { promise })
  refine law.trans _ _ _ pushed ?_
  exact Obeys.bind (obeys_visit _ _ module) (fun _ => .pure promise) _

theorem obeys_referrerOf (module : Nat) : Obeys S (referrerOf module : Hosted σ Origin) := by
  refine .bind .get fun worker => ?_
  dsimp only
  split <;> exact .pure _

/-- What becomes of an answered request of a module. -/
def goOn (id module : Nat) (specifier : Text.Units) (result : Except Value Nat) : Hosted σ PUnit :=
  match result with
  | .error reason => failGraph id reason
  | .ok record => do
    lift (modifyModule module fun m => { m with loaded := m.loaded ++ [(specifier, record)] })
    let graph ← graph id
    if graph.isLoading then visit ((← get).world.modules.size + 1) id record

theorem runLoad_request (id module : Nat) (specifier : Text.Units) :
    (runLoad (.request id module specifier) : Hosted σ PUnit) = (do
      let referrer ← referrerOf module
      goOn id module specifier (← importModule referrer specifier)) := rfl

theorem obeys_goOn (id module : Nat) (specifier : Text.Units) (result : Except Value Nat) :
    Obeys S (goOn id module specifier result : Hosted σ PUnit) := by
  cases result with
  | error reason => exact obeys_failGraph id reason
  | ok record =>
    refine .bind (law.lift fun _ law => law.loaded _ _ _) fun _ =>
      .bind (obeys_graph id) fun graph => ?_
    split
    · exact .bind .get fun worker => obeys_visit _ id record
    · exact .pure _

theorem obeys_runLoad (load : Load) : Obeys S (runLoad load : Hosted σ PUnit) := by
  cases load with
  | request id module specifier =>
    rw [runLoad_request]
    exact .bind (obeys_referrerOf module) fun referrer =>
      .bind (law.importModule referrer specifier) fun result => obeys_goOn id module specifier result
  | dynamic request =>
    refine .bind (law.importModule request.referrer request.specifier) fun result => ?_
    cases result with
    | error reason => exact obeys_settle _ _
    | ok record =>
      exact .bind (obeys_loadGraph record) fun promise => law.lift fun _ _ => obeys_subscribe _ _

theorem obeys_takeSlots (worker : Worker σ) : S worker (takeSlots worker) := by
  have slot (worker : Worker σ) (load : Load) : S worker (takeSlot worker load) := by
    rw [takeSlot]
    split <;> exact law.tasks worker worker.queue _ _ worker.graphs
  have slots (queue : List Load) (worker : Worker σ) : S worker (queue.foldl takeSlot worker) := by
    induction queue generalizing worker with
    | nil => exact law.refl worker
    | cons load queue ih => exact law.trans _ _ _ (slot worker load) (ih _)
  have emptied := law.tasks worker [] worker.slots worker.free worker.graphs
  exact law.trans _ _ _ emptied (slots worker.queue _)

theorem obeys_runJobs : Obeys S (runJobs : Hosted σ Bool) := by
  have cleared (worker : Worker σ) : S worker { worker with world := { worker.world with jobs := [] } } :=
    law.forget worker [] worker.world.requests
  exact .bind .get fun worker => .bind cleared fun _ =>
    .bind (.forM _ fun job => law.lift fun _ _ => obeys_runJob job) fun _ => .pure _

theorem obeys_round : Obeys S (round : Hosted σ Bool) := by
  rw [round_eq]
  refine .bind obeys_takeSlots fun _ => .bind .get fun worker => ?_
  split
  · exact .pure _
  · split
    · refine .bind (obeys_runLoad _) fun _ => .bind ?_ fun _ => obeys_runJobs
      exact fun worker => law.tasks worker worker.queue _ _ worker.graphs
    · exact obeys_runJobs

theorem obeys_rounds (fuel : Nat) : Obeys S (rounds fuel : Hosted σ PUnit) := by
  induction fuel with
  | zero => exact .throw _
  | succ fuel ih =>
    unfold rounds
    refine .bind obeys_round fun more => ?_
    split
    · exact ih
    · exact .pure _

theorem obeys_clear (worker : Worker σ) : S worker (clear worker) :=
  law.trans _ _ _ (law.forget worker [] []) (law.tasks _ [] [] [] worker.graphs)

theorem obeys_drain : Obeys S (drain : Hosted σ PUnit) := obeys_drain_of (obeys_rounds _) obeys_clear

/-- All that a worker does until a promise is settled obeys every law. -/
theorem obeys_settled (promise : ObjectId) : Obeys S (settled promise : Hosted σ PUnit) := by
  refine .bind obeys_drain fun _ => .bind .get fun worker => ?_
  split
  · exact .pure _
  · exact .throw _
  · exact .bind (law.lift fun _ _ => obeys_newFailure _ _) fun error => .throw _

end Hosted

/-- A relation holds between the worlds of two workers. -/
def Worker.Related (R : World → World → Prop) (worker later : Worker σ) : Prop :=
  R worker.world later.world

namespace Hosted

variable {R : World → World → Prop} [law : World.IsWorkerLaw R]

omit [Store.Source σ] in
instance : IsPreorder (Worker σ) (Worker.Related R) where
  refl worker := law.refl worker.world
  trans _ _ _ first later := law.trans _ _ _ first later

omit [Store.Source σ] in
/-- A change outside the world. -/
theorem related_outside {f : Worker σ → Worker σ} (same : ∀ worker, (f worker).world = worker.world) :
    Obeys (Worker.Related R) (modify f : Hosted σ PUnit) := by
  intro worker
  change R worker.world (f worker).world
  rw [same]
  exact law.refl _

omit [Store.Source σ] in
theorem related_lift {action : Action α} (h : Obeys R action) :
    Obeys (Worker.Related R) (lift action : Hosted σ α) := by
  intro worker
  have ran := h worker.world
  unfold left at ran ⊢
  unfold lift
  cases done : action worker.world with
  | ok value after =>
    rw [done] at ran
    exact law.trans _ _ _ ran (law.requests after _)
  | error abrupt after =>
    rw [done] at ran
    exact law.trans _ _ _ ran (law.requests after _)

theorem related_loadPath (path : Path) (kind : Kind.Supported) :
    Obeys (Worker.Related R) (loadPath path kind : Hosted σ (Except Error Nat)) := by
  have noted (f : Session Nat → Session Nat) :
      Obeys (Worker.Related R) (modifySession f : Hosted σ PUnit) := related_outside fun _ => rfl
  refine .bind (noted _) fun _ => .bind .get fun worker => ?_
  refine .bind (related_outside fun _ => rfl) fun _ => ?_
  extract_lets finish
  have finishes (result : Except Error Nat) : Obeys (Worker.Related R) (finish result) := by
    refine .bind (noted _) fun _ => ?_
    split
    · exact .bind (noted _) fun _ => .pure _
    · exact .pure _
  split
  · exact .bind (.pure _) finishes
  · exact .bind (related_lift (Loader.obeys_load _ _ _)) finishes

theorem related_importModule (referrer : Origin) (specifier : Text.Units) :
    Obeys (Worker.Related R) (importModule referrer specifier : Hosted σ (Except Value Nat)) := by
  have failed (error : Error) : Obeys (Worker.Related R)
      (lift (newError .error error.describe) : Hosted σ Value) := related_lift (obeys_newError _ _)
  refine .bind .get fun worker => ?_
  split
  · exact .bind (related_lift (obeys_newError _ _)) fun _ => .pure _
  · refine .bind (.bind (related_outside fun _ => rfl) fun _ => ?_) fun result => ?_
    · split
      · exact .pure _
      · exact .pure _
      · exact related_loadPath _ _
    · split
      · exact .pure _
      · exact .bind (related_outside fun _ => rfl) fun _ => .bind (failed _) fun _ => .pure _

instance : Worker.IsLaw (σ := σ) (Worker.Related R) where
  lift lawful := related_lift (lawful R)
  importModule := related_importModule
  clearFailures worker := law.refl worker.world
  tasks worker _ _ _ _ := law.refl worker.world
  forget worker jobs requests :=
    law.trans _ _ _ (law.jobs worker.world jobs) (law.requests _ requests)

end Hosted

end Workers
end Isolate
