import Isolate.Proofs.Worker.Gathering

/-!
# Workers that only build

While the graph of a root is loaded, a worker imports what its modules request and does nothing
else: it adds to the world that it began with, it has no jobs, and nothing waits for the end of the
graph. All that is done to load a graph keeps it so, whether the graph is loaded or given up, as
long as the CommonJS files among those that are read are bodies of functions.
-/

namespace Isolate

open Script

namespace Script.World

variable {base w w' : World} {promise : ObjectId} {added : List Module}

/-- A promise was made after a world, and nothing waits for it. -/
structure Rests (base w : World) (promise : ObjectId) : Prop where
  new : base.objects.size ≤ promise
  old : promise < w.objects.size
  unwatched (reactions : List Reaction) (waits : w.promiseState? promise = some (.pending reactions)) :
    reactions = []

theorem Rests.grows (h : base.Rests w promise) (grown : w.Grows w' added) : base.Rests w' promise where
  new := h.new
  old := Nat.lt_of_lt_of_le h.old grown.objects
  unwatched := grown.promises promise h.old ▸ h.unwatched

/-- Settling such a promise leaves nothing to do. -/
theorem Rests.settle (h : base.Rests w promise) (outcome : Except Value Value) :
    Runs (settle promise outcome) w fun _ w' => base.Rests w' promise ∧ base.Adds w w' ∧
      w'.jobs = w.jobs ∧ w'.requests = w.requests := by
  have adds : base.Adds w (left (Script.settle promise outcome) w) := adds_settle h.new outcome w
  have unchanged (same : Script.settle promise outcome w = .ok ⟨⟩ w) :
      Runs (Script.settle promise outcome) w fun _ w' => base.Rests w' promise ∧ base.Adds w w' ∧
        w'.jobs = w.jobs ∧ w'.requests = w.requests :=
    ⟨⟨⟩, w, same, h, Std.Refl.refl (r := base.Adds) w, rfl, rfl⟩
  have reads (rest : World → Action PUnit) : (get >>= rest) w = rest w w := rfl
  cases state : w.promiseState? promise with
  | none => exact unchanged (by rw [Script.settle, reads, state]; rfl)
  | some state' =>
    cases state' with
    | fulfilled | rejected => exact unchanged (by rw [Script.settle, reads, state]; rfl)
    | pending reactions =>
      rw [h.unwatched reactions state] at state
      obtain ⟨_, w', settled, settles⟩ := runs_settle h.old state outcome
      rw [left_of_ok settled] at adds
      refine ⟨_, w', settled, ⟨h.new, settles.objects ▸ h.old, fun reactions waits => ?_⟩, adds,
        settles.jobs, settles.requests⟩
      rw [settles.promise] at waits
      cases outcome <;> exact nomatch Option.some.inj waits

/-- A module is what the loader of a kind has made of a file, and the kind is that of its path. -/
def IsLoaded (w : World) (rules : Rules) (content : Path → Except Store.Error Bytes) (path : Path)
    (record : Nat) : Prop :=
  ∃ kind bytes before after, rules.classify path = some (.supported kind) ∧ content path = .ok bytes ∧
    Loader.load path kind bytes before = .ok (.ok record) after ∧ after.Retains w

theorem IsLoaded.retains {rules : Rules} {content : Path → Except Store.Error Bytes} {path : Path}
    {record : Nat} (h : w.IsLoaded rules content path record) (retains : w.Retains w') :
    w'.IsLoaded rules content path record := by
  obtain ⟨kind, bytes, before, after, classified, read, made, kept⟩ := h
  exact ⟨kind, bytes, before, after, classified, read, made, kept.trans retains⟩

end Script.World

namespace Session

variable {session : Session Nat} {w w' : World} {rules : Rules}
  {content : Path → Except Store.Error Bytes} {root : Nat}

theorem exists_mem_of_record? {ρ : Type} {session : Session ρ} {p : Path} {record : ρ}
    (found : session.record? p = some record) : ∃ q, (q, record) ∈ session.records := by
  obtain ⟨⟨q, _⟩, here, rfl⟩ := Option.map_eq_some_iff.mp found
  exact ⟨q, List.mem_of_find?_eq_some here⟩

/-- All modules with a record are there, and each but the root was loaded. -/
structure IsMade (session : Session Nat) (w : World) (rules : Rules)
    (content : Path → Except Store.Error Bytes) (root : Nat) : Prop where
  own : session.rules = rules
  known (p : Path) (record : Nat) (member : (p, record) ∈ session.records) : record < w.modules.size
  made (p : Path) (record : Nat) (member : (p, record) ∈ session.records) (other : record ≠ root) :
    w.IsLoaded rules content p record

theorem IsMade.retains (h : session.IsMade w rules content root) (retains : w.Retains w') :
    session.IsMade w' rules content root where
  own := h.own
  known p record member := Nat.lt_of_lt_of_le (h.known p record member) retains.size
  made p record member other := (h.made p record member other).retains retains

end Session

variable {σ : Type} [Store.Source σ]

/-- A worker has added to a world, and has nothing left to do but imports of modules. -/
structure Worker.Still (base : World) (rules : Rules) (content : Path → Except Store.Error Bytes)
    (root : Nat) (worker : Worker (Store.Watched σ)) : Prop where
  assembled : base.Assembled worker.world
  jobs : worker.world.jobs = []
  requests : worker.world.requests = []
  session : ∃ session, worker.session = some session ∧ session.IsMade worker.world rules content root
  root : root < worker.world.modules.size
  holds : Store.Holds worker.store.store content
  asked (load : Load) (waits : load ∈ worker.queue ∨ some load ∈ worker.slots) :
    ∃ module specifier, load = .request 0 module specifier

/-- Such a worker loads one graph, and nothing waits for the end of it. -/
structure Worker.Dormant (base : World) (rules : Rules) (content : Path → Except Store.Error Bytes)
    (root : Nat) (worker : Worker (Store.Watched σ)) : Prop
    extends worker.Still base rules content root where
  graph : ∃ g, worker.graphs = #[g] ∧ base.Rests worker.world g.promise

namespace Worker

open Hosted

variable {base : World} {rules : Rules} {content : Path → Except Store.Error Bytes} {root : Nat}
  {worker later after : Worker (Store.Watched σ)} {g : GraphLoad} {added : List Module}

/-- What is left to do changes, and the counters of the graph. -/
theorem Dormant.tasks (h : worker.Dormant base rules content root) {queue : List Load}
    {slots : List (Option Load)} (free : List Nat)
    (asked : ∀ load, load ∈ queue ∨ some load ∈ slots → ∃ module specifier,
      load = .request 0 module specifier)
    {f : GraphLoad → GraphLoad} (promise : ∀ g, (f g).promise = g.promise) :
    ({ worker with queue, slots, free, graphs := worker.graphs.modify 0 f } :
      Worker (Store.Watched σ)).Dormant base rules content root := by
  obtain ⟨g, only, rests⟩ := h.graph
  refine { h with asked, graph := ⟨f g, ?_, by rw [promise]; exact rests⟩ }
  change worker.graphs.modify 0 f = _
  rw [only]
  rfl

/-- The world is added to, and has nothing to do. -/
theorem Dormant.adds (h : worker.Dormant base rules content root) {w' : World}
    (adds : base.Adds worker.world w') (jobs : w'.jobs = worker.world.jobs)
    (requests : w'.requests = worker.world.requests)
    (rests : ∀ g, worker.graphs = #[g] → base.Rests worker.world g.promise → base.Rests w' g.promise) :
    ({ worker with world := w' } : Worker (Store.Watched σ)).Dormant base rules content root := by
  obtain ⟨assembled, retains⟩ := adds h.assembled
  obtain ⟨session, here, made⟩ := h.session
  obtain ⟨g, only, resting⟩ := h.graph
  exact
    { h with
      assembled, jobs := jobs.trans h.jobs, requests := requests.trans h.requests
      root := Nat.lt_of_lt_of_le h.root retains.size
      session := ⟨session, here, made.retains retains⟩
      graph := ⟨g, only, rests g only resting⟩ }

theorem Dormant.keeps (h : worker.Dormant base rules content root) (keeps : worker.Keeps after added)
    (session : ∃ session, after.session = some session ∧ session.IsMade after.world rules content root)
    (holds : Store.Holds after.store.store content) : after.Dormant base rules content root := by
  obtain ⟨assembled, retains⟩ := keeps.adds base h.assembled
  obtain ⟨g, only, resting⟩ := h.graph
  exact
    { assembled, session, holds, jobs := keeps.world.jobs.trans h.jobs
      requests := keeps.world.requests.trans h.requests, root := Nat.lt_of_lt_of_le h.root retains.size
      graph := ⟨g, keeps.graphs.trans only, resting.grows keeps.world⟩
      asked := keeps.queue ▸ keeps.slots ▸ h.asked }

/-- A dormant worker stays one, with all its modules, if the CommonJS files that it has read then are
bodies of functions. -/
def Sleeps (base : World) (rules : Rules) (content : Path → Except Store.Error Bytes) (root : Nat)
    (worker later : Worker (Store.Watched σ)) : Prop :=
  worker.store.reads <+: later.store.reads ∧
    (later.store.HasBodies rules content → worker.Dormant base rules content root →
      later.Dormant base rules content root ∧ worker.world.Retains later.world)

instance : IsPreorder (Worker (Store.Watched σ)) (Sleeps base rules content root) where
  refl _ := ⟨List.prefix_refl _, fun _ dormant => ⟨dormant, .refl _⟩⟩
  trans _ _ _ := fun ⟨reads, keeps⟩ ⟨reads', keeps'⟩ =>
    ⟨reads.trans reads', fun bodies dormant =>
      have ⟨middle, retains⟩ := keeps (bodies.mono reads') dormant
      have ⟨last, retains'⟩ := keeps' bodies middle
      ⟨last, retains.trans retains'⟩⟩

/-- Nothing is read. -/
theorem sleeps_of_store (store : later.store = worker.store) (retains : worker.world.Retains later.world)
    (keeps : worker.Dormant base rules content root → later.Dormant base rules content root) :
    worker.Sleeps base rules content root later :=
  ⟨store ▸ List.prefix_refl _, fun _ dormant => ⟨keeps dormant, retains⟩⟩

end Worker

namespace Hosted

variable {base : World} {rules : Rules} {content : Path → Except Store.Error Bytes} {root : Nat}
  {worker : Worker (Store.Watched σ)} {g : GraphLoad}

theorem sleeps_tasks {queue : List Load} {slots : List (Option Load)} {free : List Nat}
    (asked : ∀ load, load ∈ queue ∨ some load ∈ slots →
      (load ∈ worker.queue ∨ some load ∈ worker.slots) ∨
        ∃ module specifier, load = .request 0 module specifier)
    {f : GraphLoad → GraphLoad} (promise : ∀ g, (f g).promise = g.promise) :
    worker.Sleeps base rules content root
      { worker with queue, slots, free, graphs := worker.graphs.modify 0 f } :=
  Worker.sleeps_of_store rfl (.refl _) fun dormant => dormant.tasks free
    (fun load member => (asked load member).elim (dormant.asked load) id) promise

theorem sleeps_modifyGraph {f : GraphLoad → GraphLoad} (promise : ∀ g, (f g).promise = g.promise) :
    Obeys (Worker.Sleeps base rules content root)
      (modifyGraph 0 f : Hosted (Store.Watched σ) PUnit) :=
  fun _ => sleeps_tasks (fun _ => .inl) promise

/-- An action that adds to the world and leaves nothing to do. -/
theorem sleeps_lift {α : Type} {action : Action α}
    (runs : worker.Dormant base rules content root → Runs action worker.world fun _ w' =>
      base.Adds worker.world w' ∧ w'.jobs = worker.world.jobs ∧
        w'.requests = worker.world.requests ∧
        ∀ g, worker.graphs = #[g] → base.Rests worker.world g.promise → base.Rests w' g.promise) :
    worker.Sleeps base rules content root (left (lift action) worker) := by
  refine ⟨?_, fun _ dormant => ?_⟩
  · rw [left_eq_final, store_final_lift]
  · obtain ⟨value, w', done, adds, jobs, requests, rests⟩ := runs dormant
    obtain ⟨_, _, lifted, rfl⟩ := lift_of_runs (Q := fun _ w'' => w'' = w')
      ⟨value, w', done, rfl, requests.trans dormant.requests⟩
    rw [left_of_ok lifted]
    exact ⟨dormant.adds adds jobs requests rests, (adds dormant.assembled).2⟩

/-- An action that leaves the world calm. -/
theorem sleeps_calm {α : Type} {action : Action α} (quiet : Quiet action)
    (adds : ∀ base : World, Obeys base.Adds action) :
    Obeys (Worker.Sleeps base rules content root) (lift action : Hosted (Store.Watched σ) α) :=
  fun worker => sleeps_lift fun _ =>
    ((quiet worker.world).adds fun base => adds base _).mono fun _ _ ⟨calm, adds⟩ =>
      ⟨adds base, calm.jobs, calm.requests, fun _ _ rests => rests.grows calm⟩

/-- The graph is loaded or given up, and its promise is settled. -/
theorem sleeps_settle (outcome : Except Value Value) (promise : ∀ g', worker.graphs = #[g'] →
      g'.promise = g.promise) :
    worker.Sleeps base rules content root (left (lift (settle g.promise outcome)) worker) := by
  refine sleeps_lift fun dormant => ?_
  obtain ⟨g', only, rests⟩ := dormant.graph
  rw [promise g' only] at rests
  refine (rests.settle outcome).mono fun _ w' ⟨rests, adds, jobs, requests⟩ =>
    ⟨adds, jobs, requests, fun g'' only' _ => ?_⟩
  rw [promise g'' only']
  exact rests

/-- A graph that was looked at ends. -/
theorem sleeps_end (outcome : Except Value Value) (looked : worker.graphs.getD 0 default = g) :
    worker.Sleeps base rules content root
      (left (do
        modifyGraph 0 fun g => { g with isLoading := false }
        lift (settle g.promise outcome)) worker) := by
  have ends : Obeys (Worker.Sleeps base rules content root)
      (modifyGraph 0 fun g => { g with isLoading := false } : Hosted (Store.Watched σ) PUnit) :=
    sleeps_modifyGraph fun _ => rfl
  refine Obeys.bind_from (ends worker) fun _ after ended => sleeps_settle outcome fun g' only => ?_
  obtain ⟨-, rfl⟩ := EStateM.Result.ok.inj ended
  have here : (worker.graphs.modify 0 fun g => { g with isLoading := false })[0]? = some g' :=
    congrArg (·[0]?) only
  rw [Array.getElem?_modify, if_pos rfl] at here
  obtain ⟨old, first, rfl⟩ := Option.map_eq_some_iff.mp here
  rw [← looked, Array.getD_eq_getD_getElem?, first]
  rfl

theorem sleeps_failGraph (reason : Value) :
    Obeys (Worker.Sleeps base rules content root)
      (failGraph 0 reason : Hosted (Store.Watched σ) PUnit) := by
  refine .get_bind fun worker => ?_
  change worker.Sleeps base rules content root (left (if _ then _ else _) worker)
  split
  · exact sleeps_end _ rfl
  · exact Std.Refl.refl worker

theorem sleeps_finishVisit :
    Obeys (Worker.Sleeps base rules content root) (finishVisit 0 : Hosted (Store.Watched σ) PUnit) := by
  refine .bind (sleeps_modifyGraph fun _ => rfl) fun _ => .get_bind fun worker => ?_
  change worker.Sleeps base rules content root (left (if _ then _ else _) worker)
  split
  · exact sleeps_end _ rfl
  · exact Std.Refl.refl worker

theorem sleeps_enqueue (module : Nat) (specifier : Text.Units) :
    Obeys (Worker.Sleeps base rules content root)
      (enqueue (.request 0 module specifier) : Hosted (Store.Watched σ) PUnit) := by
  refine fun worker => Worker.sleeps_of_store rfl (.refl _) fun dormant => { dormant with asked := ?_ }
  rintro load (queued | stands)
  · rcases List.mem_append.mp queued with queued | added
    · exact dormant.asked load (.inl queued)
    · exact ⟨module, specifier, List.mem_singleton.mp added⟩
  · exact dormant.asked load (.inr stands)

theorem sleeps_visit (fuel module : Nat) :
    Obeys (Worker.Sleeps base rules content root)
      (visit fuel 0 module : Hosted (Store.Watched σ) PUnit) := by
  induction fuel generalizing module with
  | zero => exact .throw _
  | succ fuel ih =>
    rw [visit_succ]
    refine .bind .get fun worker => .bind (.bind .get fun _ => .pure _) fun graph => ?_
    split
    · refine .bind (sleeps_modifyGraph fun _ => rfl) fun _ => .bind (.forM _ fun specifier => ?_)
        fun _ => sleeps_finishVisit
      split
      · exact ih _
      · exact sleeps_enqueue _ _
    · exact sleeps_finishVisit

theorem sleeps_importModule (referrer : Origin) (specifier : Text.Units) :
    Obeys (Worker.Sleeps base rules content root)
      (importModule referrer specifier : Hosted (Store.Watched σ) (Except Value Nat)) := by
  intro worker
  have evolves : worker.Evolves (left (importModule referrer specifier) worker) :=
    Worker.IsLaw.importModule referrer specifier worker
  refine ⟨evolves.reads, fun bodies dormant => ?_⟩
  obtain ⟨session, here, made⟩ := dormant.session
  rw [left_eq_final, ← made.own] at bodies
  obtain ⟨result, after, done, imports⟩ := importModule_outcome here dormant.requests dormant.holds
    referrer specifier fun _ => isBodyAt_of_import here bodies
  rw [left_of_ok done]
  have retains {added : List Module} (keeps : worker.Keeps after added) : worker.world.Retains after.world :=
    (keeps.adds base dormant.assembled).2
  cases imports with
  | failed keeps next left rules holds records =>
    refine ⟨dormant.keeps keeps ⟨next, left, ?_⟩ holds, retains keeps⟩
    obtain ⟨own, known, loaded⟩ := made.retains (retains keeps)
    rw [← records] at known loaded
    exact ⟨rules.trans own, known, loaded⟩
  | reused target known =>
    exact ⟨dormant.keeps (.refl _ _ _) ⟨_, rfl, made.own, made.known, made.made⟩ dormant.holds, .refl _⟩
  | @loaded path kind bytes module _ target unknown classified read keeps new load left holds reads =>
    refine ⟨dormant.keeps keeps ⟨_, left, ?_⟩ holds, retains keeps⟩
    have size : worker.world.modules.size < after.world.modules.size := by
      rw [keeps.world.modules]
      simp
    have made' := made.retains (retains keeps)
    have records := @Session.records_adopt _ session path worker.world.modules.size unknown kind
    refine ⟨(Session.rules_adopt kind).trans made.own, fun p record member => ?_,
      fun p record member other => ?_⟩
    · rw [Session.adopt] at records
      rw [records] at member
      rcases List.mem_cons.mp member with same | member
      · exact (Prod.mk.inj same).2 ▸ size
      · exact made'.known p record member
    · rw [Session.adopt] at records
      rw [records] at member
      rcases List.mem_cons.mp member with same | member
      · obtain ⟨rfl, rfl⟩ := Prod.mk.inj same
        exact ⟨kind, bytes, worker.world, after.world, made.own ▸ classified, read, load, .refl _⟩
      · exact made'.made p record member other

/-- A load that a module requests. -/
theorem sleeps_request (module : Nat) (specifier : Text.Units) :
    Obeys (Worker.Sleeps base rules content root)
      (runLoad (.request 0 module specifier) : Hosted (Store.Watched σ) PUnit) := by
  have referrer : Obeys (Worker.Sleeps base rules content root)
      (referrerOf module : Hosted (Store.Watched σ) Origin) := by
    refine .bind .get fun worker => ?_
    dsimp only
    split <;> exact .pure _
  refine .bind referrer fun referrer worker => ?_
  refine Obeys.bind_from (sleeps_importModule referrer specifier worker) fun result after done => ?_
  cases result with
  | error reason => exact sleeps_failGraph reason after
  | ok record =>
    refine Obeys.bind_at ?_ fun _ => .bind (.bind .get fun _ => .pure _) fun graph => ?_
    · refine sleeps_lift fun dormant => ?_
      obtain ⟨session, path, here, known⟩ := exists_record_of_importModule done
      obtain ⟨session', here', made⟩ := dormant.session
      obtain rfl := Option.some.inj (here.symm.trans here')
      obtain ⟨p, registered⟩ := Session.exists_mem_of_record? known
      have adds : base.Adds after.world (left (modifyModule module fun m =>
          { m with loaded := m.loaded ++ [(specifier, record)] }) after.world) := by
        refine adds_modifyModule_at module (fun m => ⟨_, m.space, rfl⟩) fun m earlier entry member => ?_
        rcases List.mem_append.mp member with member | added
        · exact earlier entry member
        · rw [List.mem_singleton.mp added]
          exact made.known p record registered
      exact ⟨⟨⟩, _, rfl, adds, rfl, rfl, fun _ _ rests => ⟨rests.new, rests.old, rests.unwatched⟩⟩
    · split
      · exact .bind .get fun worker => sleeps_visit _ record
      · exact .pure _

omit [Store.Source σ] in
/-- A load that stands in a slot stood there before or was queued. -/
theorem foldl_takeSlot_mem (queue : List Load) (worker : Worker σ) :
    ∃ slots free, queue.foldl takeSlot worker = { worker with slots, free } ∧
      ∀ load, some load ∈ slots → load ∈ queue ∨ some load ∈ worker.slots := by
  induction queue generalizing worker with
  | nil => exact ⟨worker.slots, worker.free, rfl, fun _ => .inr⟩
  | cons first queue ih =>
    obtain ⟨slots, free, taken, known⟩ : ∃ slots free, takeSlot worker first =
        { worker with slots, free } ∧ ∀ load, some load ∈ slots → load = first ∨
          some load ∈ worker.slots := by
      rw [takeSlot]
      split
      · refine ⟨_, _, rfl, fun load member => ?_⟩
        exact (List.mem_or_eq_of_mem_set member).symm.imp_left Option.some.inj
      · refine ⟨_, _, rfl, fun load member => (List.mem_append.mp member).symm.imp_left fun last => ?_⟩
        exact Option.some.inj (List.mem_singleton.mp last)
    obtain ⟨slots', free', rest, known'⟩ := ih { worker with slots, free }
    rw [List.foldl_cons, taken, rest]
    refine ⟨slots', free', rfl, fun load member => ?_⟩
    rcases known' load member with later | stood
    · exact .inl (List.mem_cons_of_mem _ later)
    · refine (known load stood).imp_left fun same => ?_
      rw [same]
      exact List.mem_cons_self

theorem sleeps_takeSlots :
    Obeys (Worker.Sleeps base rules content root)
      (modify takeSlots : Hosted (Store.Watched σ) PUnit) := by
  intro worker
  obtain ⟨slots, free, taken, known⟩ := foldl_takeSlot_mem worker.queue { worker with queue := [] }
  change worker.Sleeps base rules content root (worker.queue.foldl takeSlot { worker with queue := [] })
  rw [taken]
  refine Worker.sleeps_of_store rfl (.refl _) fun dormant => { dormant with asked := ?_ }
  rintro load (queued | stands)
  · contradiction
  · exact dormant.asked load (known load stands)

theorem mem_of_lowestLoad? {slots : List (Option Load)} {slot : Nat} {load : Load}
    (lowest : lowestLoad? slots = some (slot, load)) : some load ∈ slots := by
  obtain ⟨⟨found, i⟩, member, here⟩ := List.exists_of_findSome?_eq_some lowest
  obtain ⟨load', rfl, same⟩ := Option.map_eq_some_iff.mp here
  rw [← (Prod.mk.inj same).2]
  exact List.fst_mem_of_mem_zipIdx member

/-- A load that stands in a slot. -/
theorem sleeps_runLoad {load : Load} (stands : some load ∈ worker.slots) :
    worker.Sleeps base rules content root (left (runLoad load) worker) := by
  have evolves : worker.Evolves (left (runLoad load) worker) := obeys_runLoad load worker
  refine ⟨evolves.reads, fun bodies dormant => ?_⟩
  obtain ⟨module, specifier, rfl⟩ := dormant.asked load (.inr stands)
  exact (sleeps_request module specifier worker).2 bodies dormant

theorem sleeps_runJobs :
    Obeys (Worker.Sleeps base rules content root) (runJobs : Hosted (Store.Watched σ) Bool) := by
  intro worker
  have evolves : worker.Evolves (left runJobs worker) := obeys_runJobs worker
  refine ⟨evolves.reads, fun _ dormant => ?_⟩
  rw [left_of_ok (Worker.runJobs_of_idle dormant.jobs)]
  exact ⟨dormant, .of_modules rfl fun _ _ known => known⟩

theorem sleeps_round :
    Obeys (Worker.Sleeps base rules content root) (round : Hosted (Store.Watched σ) Bool) := by
  rw [round_eq]
  refine .bind sleeps_takeSlots fun _ => .get_bind fun worker => ?_
  split
  · exact Std.Refl.refl worker
  · split
    next slot load lowest =>
      refine Obeys.bind_at (sleeps_runLoad (mem_of_lowestLoad? lowest)) fun _ =>
        .bind (fun worker => ?_) fun _ => sleeps_runJobs
      refine Worker.sleeps_of_store rfl (.refl _) fun dormant => { dormant with asked := ?_ }
      rintro load (queued | stands)
      · exact dormant.asked load (.inl queued)
      · exact dormant.asked load (.inr ((List.mem_or_eq_of_mem_set stands).resolve_right nofun))
    next => exact sleeps_runJobs worker

theorem sleeps_rounds (fuel : Nat) :
    Obeys (Worker.Sleeps base rules content root) (rounds fuel : Hosted (Store.Watched σ) PUnit) := by
  induction fuel with
  | zero => exact .throw _
  | succ fuel ih =>
    unfold rounds
    refine .bind sleeps_round fun more => ?_
    split
    · exact ih
    · exact .pure _

theorem sleeps_drain :
    Obeys (Worker.Sleeps base rules content root) (drain : Hosted (Store.Watched σ) PUnit) := by
  refine obeys_drain_of (sleeps_rounds _) fun worker =>
    Worker.sleeps_of_store rfl (.of_modules rfl fun _ _ known => known) fun dormant => ?_
  have adds : base.Adds worker.world { worker.world with jobs := [], requests := [] } :=
    World.adds_of_extends (fun assembled => { assembled.toExtends with }) rfl
      (fun _ _ known => known) (Nat.le_refl _)
  have cleared := dormant.adds adds dormant.jobs.symm dormant.requests.symm fun _ _ rests =>
    ⟨rests.new, rests.old, rests.unwatched⟩
  exact { cleared with asked := by rintro load (queued | stands) <;> contradiction }

/-- All that a worker does until the graph has ended. -/
theorem sleeps_settled (promise : ObjectId) :
    Obeys (Worker.Sleeps base rules content root)
      (settled promise : Hosted (Store.Watched σ) PUnit) := by
  refine .bind sleeps_drain fun _ => .bind .get fun worker => ?_
  split
  · exact .pure _
  · exact .throw _
  · exact .bind (sleeps_calm (quiet_newFailure _ _) fun _ => adds_newFailure _ _) fun _ => .throw _

/-- A graph is loaded from its root on: a promise is made for the end of it. -/
theorem sleeps_loadGraph (still : worker.Still base rules content root) (none : worker.graphs = #[]) :
    ∃ begun : Worker (Store.Watched σ), begun.Dormant base rules content root ∧
      begun.store = worker.store ∧ worker.world.Retains begun.world ∧
      begun.Sleeps base rules content root (left (loadGraph root) worker) := by
  obtain ⟨w', promised, calm, old, pending, adds⟩ := lift_newPromise still.requests
  obtain ⟨assembled, retains⟩ := adds base still.assembled
  obtain ⟨session, here, made⟩ := still.session
  let promise := worker.world.objects.size
  let begun : Worker (Store.Watched σ) := { worker with world := w', graphs := #[{ promise }] }
  have dormant : begun.Dormant base rules content root :=
    { still with
      assembled, jobs := calm.jobs.trans still.jobs, requests := calm.requests.trans still.requests
      root := Nat.lt_of_lt_of_le still.root retains.size
      session := ⟨session, here, made.retains retains⟩
      graph := ⟨{ promise }, rfl, still.assembled.objects_le, old, fun reactions waits => ?_⟩ }
  · refine ⟨begun, dormant, rfl, retains, ?_⟩
    have same : loadGraph root worker =
        (visit (w'.modules.size + 1) 0 root >>= fun _ => pure promise) begun := by
      rw [loadGraph, bind_of_ok promised, bind_of_ok (get_run _)]
      change (visit (w'.modules.size + 1) worker.graphs.size root >>= fun _ => pure promise)
        { worker with world := w', graphs := worker.graphs.push { promise } } = _
      rw [none]
      rfl
    rw [left, same]
    exact Obeys.bind (sleeps_visit _ root) (fun _ => .pure promise) begun
  · have pending' : begun.world.promiseState? promise = some (.pending []) := pending
    exact (PromiseState.pending.inj (Option.some.inj (waits.symm.trans pending')))

end Hosted
end Isolate
