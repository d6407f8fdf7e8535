import Isolate.Proofs.Worker.Outcomes

/-!
# The loading of one graph

While one graph is loaded and nothing else is done, every step of it is known: a module that was met
before, or that requests nothing, counts as loaded; any other queues its requests; and the promise for
the end of the graph is settled once, with the last module or with the first failure.
-/

namespace Isolate

open Script

namespace Worker

variable {σ : Type} {worker after : Worker σ} {g g' : GraphLoad} {added : List Module}

/-- One graph is all that a worker loads, and nothing else is left to do in its world. -/
structure LoadsOnly (worker : Worker σ) (g : GraphLoad) : Prop where
  graphs : worker.graphs = #[g]
  jobs : worker.world.jobs = []
  requests : worker.world.requests = []
  promise : g.promise < worker.world.objects.size
  /-- Until the graph is loaded or given up, its promise waits, and nothing waits for it. -/
  waits : g.isLoading → worker.world.promiseState? g.promise = some (.pending [])

theorem LoadsOnly.keeps (h : worker.LoadsOnly g) (keeps : worker.Keeps after added) :
    after.LoadsOnly g where
  graphs := keeps.graphs.trans h.graphs
  jobs := keeps.world.jobs.trans h.jobs
  requests := keeps.world.requests.trans h.requests
  promise := Nat.lt_of_lt_of_le h.promise keeps.world.objects
  waits loading := (keeps.world.promises _ h.promise).trans (h.waits loading)

/-- The graph is loaded still, and its counters may differ. Nothing of this has to do with the session,
the store, the queue and the slots. -/
theorem LoadsOnly.count (h : worker.LoadsOnly g) (world : after.world = worker.world)
    (graphs : after.graphs = #[g']) (promise : g'.promise = g.promise)
    (isLoading : g'.isLoading = g.isLoading) : after.LoadsOnly g' := by
  obtain ⟨_, jobs, requests, old, waits⟩ := h
  rw [← world, ← promise] at old waits
  rw [← world] at jobs requests
  exact ⟨graphs, jobs, requests, old, by rw [isLoading]; exact waits⟩

theorem LoadsOnly.of_eq (h : worker.LoadsOnly g) (world : after.world = worker.world)
    (graphs : after.graphs = worker.graphs) : after.LoadsOnly g :=
  h.count world (graphs.trans h.graphs) rfl rfl

/-- The graph is loaded or given up, and its promise is settled. -/
theorem LoadsOnly.settle {state : PromiseState} (h : worker.LoadsOnly g)
    (settles : worker.world.Settles after.world g.promise state) (graphs : after.graphs = #[g'])
    (promise : g'.promise = g.promise) (ended : g'.isLoading = false) : after.LoadsOnly g' where
  graphs := graphs
  jobs := settles.jobs.trans h.jobs
  requests := settles.requests.trans h.requests
  promise := by rw [promise, settles.objects]; exact h.promise
  waits loading := by rw [ended] at loading; contradiction

def link (worker : Worker σ) (module : Nat) (specifier : Text.Units) (record : Nat) : Worker σ :=
  { worker with
    world := { worker.world with
      modules := worker.world.modules.modify module fun m =>
        { m with loaded := m.loaded ++ [(specifier, record)] } } }

theorem LoadsOnly.link (h : worker.LoadsOnly g) (module : Nat) (specifier : Text.Units)
    (record : Nat) : (worker.link module specifier record).LoadsOnly g :=
  ⟨h.graphs, h.jobs, h.requests, h.promise, h.waits⟩

end Worker

namespace Hosted

variable {σ : Type} {worker after : Worker σ} {g : GraphLoad}

theorem graph_of_only (only : worker.graphs = #[g]) : graph 0 worker = .ok g worker := by
  change EStateM.Result.ok (worker.graphs.getD 0 default) worker = _
  rw [only]
  rfl

theorem modifyGraph_of_only (only : worker.graphs = #[g]) (f : GraphLoad → GraphLoad) :
    modifyGraph 0 f worker = .ok ⟨⟩ { worker with graphs := #[f g] } := by
  change EStateM.Result.ok PUnit.unit { worker with graphs := worker.graphs.modify 0 f } = _
  rw [only]
  rfl

/-- The promise for the end of a graph is new, and nothing waits for it. -/
theorem lift_newPromise (requests : worker.world.requests = []) :
    ∃ w', lift newPromise worker = .ok worker.world.objects.size { worker with world := w' } ∧
      worker.world.Calm w' ∧ worker.world.objects.size < w'.objects.size ∧
      w'.promiseState? worker.world.objects.size = some (.pending []) ∧
      ∀ base : World, base.Adds worker.world w' := by
  have adds (base : World) : Obeys base.Adds newPromise := adds_newPromise
  have made : Runs newPromise worker.world fun id w' => (id = worker.world.objects.size ∧
      worker.world.Calm w' ∧ worker.world.objects.size < w'.objects.size ∧
      w'.promiseState? worker.world.objects.size = some (.pending []) ∧
      ∀ base : World, base.Adds worker.world w') ∧ w'.requests = [] := by
    refine ⟨_, _, rfl, ⟨rfl, .push _ _, ?_, ?_, fun base => adds base worker.world⟩, requests⟩
    · simp
    · rw [World.promiseState?_eq, World.object, Array.getD_eq_getD_getElem?, Array.getElem?_push_size]
      rfl
  obtain ⟨_, w', done, rfl, rest⟩ := lift_of_runs made
  exact ⟨w', done, rest⟩

/-- Settling a promise that nothing waits for leaves a worker nothing to do. -/
theorem lift_settle {id : ObjectId} (requests : worker.world.requests = [])
    (old : id < worker.world.objects.size)
    (pending : worker.world.promiseState? id = some (.pending [])) (outcome : Except Value Value) :
    ∃ w', lift (settle id outcome) worker = .ok ⟨⟩ { worker with world := w' } ∧
      worker.world.Settles w' id (.ofOutcome outcome) := by
  obtain ⟨_, w', settled, settles⟩ := lift_of_runs ((runs_settle old pending outcome).mono
    fun _ w' settles => And.intro settles (settles.requests.trans requests))
  exact ⟨w', settled, settles⟩

theorem finishVisit_of_more (only : worker.graphs = #[g]) (more : 1 < g.pending) :
    finishVisit 0 worker =
      .ok ⟨⟩ { worker with graphs := #[{ g with pending := g.pending - 1 }] } := by
  rw [finishVisit, bind_of_ok (modifyGraph_of_only only _), bind_of_ok (graph_of_only rfl), if_neg]
  · rfl
  · dsimp only
    omega

/-- With its last module a graph is loaded. -/
theorem finishVisit_of_last (h : worker.LoadsOnly g) (loading : g.isLoading)
    (last : g.pending = 1) :
    ∃ w', finishVisit 0 worker = .ok ⟨⟩ { worker with
        world := w', graphs := #[{ g with pending := 0, isLoading := false }] } ∧
      worker.world.Settles w' g.promise (.fulfilled .undefined) := by
  have lowered : g.pending - 1 = 0 := by omega
  let ended : Worker σ := { worker with graphs := #[{ g with pending := 0, isLoading := false }] }
  obtain ⟨w', settled, settles⟩ := @lift_settle σ ended g.promise h.requests h.promise
    (h.waits loading) (.ok .undefined)
  refine ⟨w', ?_, settles⟩
  rw [finishVisit, bind_of_ok (modifyGraph_of_only h.graphs _), bind_of_ok (graph_of_only rfl),
    if_pos lowered, bind_of_ok (modifyGraph_of_only rfl _), lowered]
  exact settled

/-- With its first failure a graph is given up. -/
theorem failGraph_of_loading (h : worker.LoadsOnly g) (loading : g.isLoading) (reason : Value) :
    ∃ w', failGraph 0 reason worker = .ok ⟨⟩ { worker with
        world := w', graphs := #[{ g with isLoading := false }] } ∧
      worker.world.Settles w' g.promise (.rejected reason) := by
  let ended : Worker σ := { worker with graphs := #[{ g with isLoading := false }] }
  obtain ⟨w', settled, settles⟩ := @lift_settle σ ended g.promise h.requests h.promise
    (h.waits loading) (.error reason)
  refine ⟨w', ?_, settles⟩
  rw [failGraph, bind_of_ok (graph_of_only h.graphs), if_pos loading,
    bind_of_ok (modifyGraph_of_only h.graphs _)]
  exact settled

theorem failGraph_of_ended (only : worker.graphs = #[g]) (ended : g.isLoading = false)
    (reason : Value) : failGraph 0 reason worker = .ok ⟨⟩ worker := by
  rw [failGraph, bind_of_ok (graph_of_only only), ended]
  rfl

theorem forM_enqueue (module : Nat) (specifiers : List Text.Units) (worker : Worker σ) :
    (specifiers.forM fun specifier => enqueue (.request 0 module specifier)) worker =
      .ok ⟨⟩ { worker with queue := worker.queue ++ specifiers.map (.request 0 module) } := by
  induction specifiers generalizing worker with
  | nil => simp [Pure.pure, EStateM.pure]
  | cons specifier specifiers ih =>
    have first : enqueue (.request 0 module specifier) worker =
        .ok ⟨⟩ { worker with queue := worker.queue ++ [.request 0 module specifier] } := rfl
    refine (bind_of_ok first _).trans ((ih _).trans ?_)
    rw [List.append_assoc]
    rfl

/-- A module that requests nothing, or that was met before, counts as loaded. -/
theorem visit_of_known (only : worker.graphs = #[g]) {module : Nat}
    (known : (worker.world.module module).requests = [] ∨ module ∈ g.visited) (fuel : Nat) :
    visit (fuel + 1) 0 module worker = finishVisit 0 worker := by
  rw [visit_succ, bind_of_ok (get_run worker), bind_of_ok (graph_of_only only), if_neg]
  rcases known with nothing | met
  · simp [nothing]
  · simp [met]

/-- A module that is met for the first time queues all that it requests. -/
theorem visit_of_new (only : worker.graphs = #[g]) {module : Nat} {m : Module}
    (here : worker.world.module module = m) (some : m.requests ≠ []) (unlinked : m.status = .unlinked)
    (unmet : module ∉ g.visited) (unloaded : m.loaded = []) (fuel : Nat) :
    visit (fuel + 1) 0 module worker = finishVisit 0 { worker with
      queue := worker.queue ++ m.requests.map (.request 0 module)
      graphs := #[{ g with
        visited := module :: g.visited, pending := g.pending + m.requests.length }] } := by
  have fresh : !m.requests.isEmpty && decide (m.status = .unlinked) &&
      !g.visited.contains module := by
    simp [some, unlinked, unmet]
  rw [visit_succ, bind_of_ok (get_run worker), bind_of_ok (graph_of_only only), here, if_pos fresh,
    bind_of_ok (modifyGraph_of_only only _), unloaded]
  exact bind_of_ok (forM_enqueue module m.requests _) _

theorem referrerOf_of_code {module unit : Nat} {code : CodeUnit}
    (body : (worker.world.module module).body = .code unit)
    (known : worker.world.units[unit]? = some code) :
    referrerOf module worker = .ok code.referrer worker := by
  rw [referrerOf, bind_of_ok (get_run worker), body]
  dsimp only
  rw [known]
  rfl

theorem referrerOf_run (module : Nat) (worker : Worker σ) :
    ∃ referrer, referrerOf module worker = .ok referrer worker := by
  rw [referrerOf, bind_of_ok (get_run worker)]
  cases (worker.world.module module).body <;> exact ⟨_, rfl⟩

variable [Store.Source σ] {module : Nat} {specifier : Text.Units} {referrer : Origin}

theorem runLoad_of_error (found : referrerOf module worker = .ok referrer worker) {reason : Value}
    (imported : importModule referrer specifier worker = .ok (.error reason) after) :
    runLoad (.request 0 module specifier) worker = failGraph 0 reason after := by
  rw [runLoad, bind_of_ok found, bind_of_ok imported]

/-- An import that comes to a module links it, and the graph goes on with the module unless it has
ended. -/
theorem runLoad_of_ok (found : referrerOf module worker = .ok referrer worker) {record : Nat}
    (imported : importModule referrer specifier worker = .ok (.ok record) after)
    (h : after.LoadsOnly g) :
    runLoad (.request 0 module specifier) worker =
      (if g.isLoading then visit (after.world.modules.size + 1) 0 record else pure ⟨⟩)
        (after.link module specifier record) := by
  have linked : lift (modifyModule module fun m =>
      { m with loaded := m.loaded ++ [(specifier, record)] }) after =
        .ok ⟨⟩ (after.link module specifier record) := by
    have runs : Runs (modifyModule module fun m =>
        { m with loaded := m.loaded ++ [(specifier, record)] }) after.world fun _ w' =>
          w' = (after.link module specifier record).world ∧ w'.requests = [] :=
      ⟨⟨⟩, _, rfl, rfl, h.requests⟩
    obtain ⟨_, _, done, rfl⟩ := lift_of_runs runs
    exact done
  have same : (after.link module specifier record).world.modules.size =
      after.world.modules.size := Array.size_modify
  rw [runLoad, bind_of_ok found, bind_of_ok imported]
  dsimp only
  rw [bind_of_ok linked, bind_of_ok (graph_of_only (h.link module specifier record).graphs)]
  split
  · rw [bind_of_ok (get_run _), same]
  · rfl

end Hosted
end Isolate
