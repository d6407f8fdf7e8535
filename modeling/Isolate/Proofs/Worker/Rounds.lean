import Isolate.Proofs.Worker.Gathering

/-!
# Rounds that load a graph

A round does one load. While no load has failed, the modules of the graph are gathered; after a failure
the loads that are left are still done, and add nothing to the graph. Either way fewer loads are left
than before, if the imports count that have not been met yet. So the rounds end, with the whole graph or
with a failure.
-/

namespace Isolate

open Script Hosted

namespace Worker

variable {σ : Type} [Store.Source σ] {graph : ImportGraph} {promise : ObjectId} {paths : Finset Path}
  {worker after : Worker (Store.Watched σ)} {session next : Session Nat} {left rest : List Load}
  {g : GraphLoad} {n : Nat}

/-- How far a worker has come that loads one graph. The number bounds the rounds that are left to do, if
the set of paths has all that import something. -/
inductive Stage (graph : ImportGraph) (promise : ObjectId) (paths : Finset Path)
    (worker : Worker (Store.Watched σ)) (n : Nat) : Prop where
  /-- The modules of the graph are gathered, and its promise is fulfilled with the last one. -/
  | gathering (session : Session Nat) (g : GraphLoad) (only : worker.LoadsOnly g)
      (own : g.promise = promise) (free : IsFree worker.slots worker.free)
      (gathers : worker.Gathers graph session g.visited worker.outstanding)
      (joins : worker.Joins graph session worker.outstanding)
      (waits : worker.outstanding ≠ [] → g.isLoading ∧ g.pending = worker.outstanding.length)
      (ended : worker.outstanding = [] →
        worker.world.promiseState? promise = some (.fulfilled .undefined))
      (work : n =
        worker.outstanding.length + graph.remaining paths (session.records.map Prod.fst))
  /-- The graph is given up, and its promise is rejected. -/
  | givenUp (session : Session Nat) (g : GraphLoad) (only : worker.LoadsOnly g)
      (own : g.promise = promise) (free : IsFree worker.slots worker.free)
      (here : worker.session = some session) (rules : session.rules = graph.rules)
      (holds : Store.Holds worker.store.store graph.content) (ended : g.isLoading = false)
      (asked : ∀ load ∈ worker.outstanding, ∃ m s, load = .request 0 m s)
      (rejected : ∃ reason, worker.world.promiseState? promise = some (.rejected reason))
      (work : n = worker.outstanding.length)

/-- With the end of a visit the loads are left that the graph asks for, or the graph is loaded. -/
theorem stage_of_finishVisit (only : worker.LoadsOnly g) (loading : g.isLoading)
    (gathers : worker.Gathers graph session g.visited left) (joins : worker.Joins graph session left)
    (count : g.pending = left.length + 1) :
    ∃ w' graphs, finishVisit 0 worker = .ok ⟨⟩ { worker with world := w', graphs } ∧
      w'.jobs = [] ∧
      ∀ paths slots free, IsFree slots free → (loadsIn slots ++ worker.queue).Perm left →
        Stage graph g.promise paths { worker with world := w', graphs, slots, free }
          (left.length + graph.remaining paths (session.records.map Prod.fst)) := by
  by_cases some : left = []
  · obtain ⟨w', done, settles⟩ := finishVisit_of_last only loading (by rw [count, some]; rfl)
    refine ⟨w', _, done, settles.jobs.trans only.jobs, fun paths slots free valid same => ?_⟩
    let ended : GraphLoad := { g with pending := 0, isLoading := false }
    let finished : Worker (Store.Watched σ) :=
      { worker with world := w', graphs := #[ended], slots, free }
    have gathers' : finished.Gathers graph session g.visited left :=
      gathers.of_eq rfl rfl (fun _ _ _ serves => serves.settles settles)
        (Nat.le_of_eq (by rw [← settles.modules]))
    have same' : left.Perm finished.outstanding := same.symm
    refine .gathering session ended (only.settle settles rfl rfl rfl) rfl valid
      (gathers'.perm same') ((joins.of_eq settles.modules).perm same') (fun waits => ?_)
      (fun _ => settles.promise)
      (by rw [same'.length_eq])
    rw [some] at same'
    exact absurd same'.nil_eq.symm waits
  · have more : 1 < g.pending := by
      have waits := List.length_pos_iff.mpr some
      omega
    refine ⟨worker.world, _, finishVisit_of_more only.graphs more, only.jobs,
      fun paths slots free valid same => ?_⟩
    let counted : GraphLoad := { g with pending := g.pending - 1 }
    let finished : Worker (Store.Watched σ) := { worker with graphs := #[counted], slots, free }
    have gathers' : finished.Gathers graph session g.visited left :=
      gathers.of_eq rfl rfl (fun _ _ _ => id) (Nat.le_refl _)
    have joins' : finished.Joins graph session left := joins.of_eq rfl
    have same' : left.Perm finished.outstanding := same.symm
    refine .gathering session counted (only.count rfl rfl rfl rfl) rfl valid (gathers'.perm same')
      (joins'.perm same') (fun _ => ⟨loading, ?_⟩) (fun nothing => ?_)
      (by rw [same'.length_eq])
    · rw [← same'.length_eq]
      exact Nat.sub_eq_of_eq_add count
    · change finished.outstanding = [] at nothing
      rw [nothing] at same'
      exact absurd same'.eq_nil some

omit [Store.Source σ] in
/-- After a round that has queued nothing, the loads in slots are all that are left. -/
theorem outstanding_of_empty {slots : List (Option Load)} (free : List Nat)
    (perm : (loadsIn slots).Perm rest) (empty : worker.queue = []) :
    rest.Perm ({ worker with slots, free } : Worker (Store.Watched σ)).outstanding := by
  rw [outstanding, empty, List.append_nil]
  exact perm.symm

/-- With a failure the graph is given up, and the loads that are left stay. -/
theorem stage_of_failGraph (only : worker.LoadsOnly g) (loading : g.isLoading)
    (here : worker.session = some session) (rules : session.rules = graph.rules)
    (holds : Store.Holds worker.store.store graph.content) (empty : worker.queue = [])
    (asked : ∀ load ∈ rest, ∃ m s, load = .request 0 m s) (reason : Value) :
    ∃ w' graphs, failGraph 0 reason worker = .ok ⟨⟩ { worker with world := w', graphs } ∧
      w'.jobs = [] ∧
      ∀ paths slots free, IsFree slots free → (loadsIn slots).Perm rest →
        Stage graph g.promise paths { worker with world := w', graphs, slots, free } rest.length := by
  obtain ⟨w', failed, settles⟩ := failGraph_of_loading only loading reason
  refine ⟨w', _, failed, settles.jobs.trans only.jobs, fun paths slots free valid perm => ?_⟩
  have same := outstanding_of_empty free perm empty
  exact .givenUp session { g with isLoading := false } (only.settle settles rfl rfl rfl) rfl valid
    here rules holds rfl (fun load member => asked load (same.mem_iff.mpr member))
    ⟨reason, settles.promise⟩ same.length_eq

/-- An import leaves a worker with the same rules and files, and nothing to do besides. -/
theorem Imports.keeps {content : Path → Except Store.Error Bytes} {referrer : Origin}
    {specifier : String} {result : Except Value Nat} (holds : Store.Holds worker.store.store content)
    (h : worker.Imports session content referrer specifier result after) :
    ∃ added next, worker.Keeps after added ∧ after.session = some next ∧
      next.rules = session.rules ∧ Store.Holds after.store.store content := by
  cases h with
  | failed keeps next left rules holds => exact ⟨[], next, keeps, left, rules, holds⟩
  | reused => exact ⟨[], _, .refl _ _ _, rfl, rfl, holds⟩
  | @loaded path kind _ module _ _ _ _ _ keeps _ _ left holds =>
    exact ⟨[module], session.adopt path kind _, keeps, left, Session.rules_adopt kind, holds⟩

/-- Once a graph is given up, a load adds nothing to it. -/
theorem runLoad_of_ended {m : Nat} {s : Text.Units} (only : worker.LoadsOnly g)
    (ended : g.isLoading = false) (here : worker.session = some session)
    (holds : Store.Holds worker.store.store graph.content)
    (bodies : (Script.left (runLoad (.request 0 m s)) worker).store.HasBodies session.rules graph.content) :
    ∃ after next, runLoad (.request 0 m s) worker = .ok ⟨⟩ after ∧ after.LoadsOnly g ∧
      after.session = some next ∧ next.rules = session.rules ∧
      Store.Holds after.store.store graph.content ∧ after.queue = worker.queue ∧
      after.slots = worker.slots ∧ after.free = worker.free ∧
      after.world.promiseState? g.promise = worker.world.promiseState? g.promise := by
  obtain ⟨referrer, found⟩ := referrerOf_run m worker
  obtain ⟨result, after, done, imports⟩ := importModule_outcome here only.requests holds referrer s
    fun _ => isBodyAt_of_import here (bodies.mono (reads_runLoad found))
  obtain ⟨added, next, keeps, left, rules, holds⟩ := imports.keeps holds
  have only' := only.keeps keeps
  have same := keeps.world.promises g.promise only.promise
  cases result with
  | error reason =>
    refine ⟨after, next, ?_, only', left, rules, holds, keeps.queue, keeps.slots, keeps.free, same⟩
    rw [runLoad_of_error found done, failGraph_of_ended only'.graphs ended]
  | ok record =>
    refine ⟨after.link m s record, next, ?_, only'.link m s record, left, rules, holds, keeps.queue,
      keeps.slots, keeps.free, same⟩
    rw [runLoad_of_ok found done only', ended]
    rfl

/-- A round does one of the loads that are left, and brings the end nearer. -/
theorem Stage.step (h : Stage graph promise paths worker n)
    (bodies : (Script.left round worker).store.HasBodies graph.rules graph.content)
    (waits : worker.outstanding ≠ []) :
    ∃ after n', round worker = .ok true after ∧ Stage graph promise paths after n' ∧
      (graph.IsWithin paths → n' < n) := by
  cases h with
  | gathering session g only own free gathers joins waiting ended work =>
    subst own
    obtain ⟨loading, count⟩ := waiting waits
    obtain ⟨load, rest, slots, free', perm, goes, does⟩ := round_of_load free waits
    let taken : Worker (Store.Watched σ) := { worker with queue := [], slots, free := free' }
    have only' : taken.LoadsOnly g := only.of_eq rfl rfl
    have gathers' : taken.Gathers graph session g.visited (load :: rest) :=
      (gathers.perm perm).of_eq rfl rfl (fun _ _ _ => id) (Nat.le_refl _)
    have joins' : taken.Joins graph session (load :: rest) := (joins.perm perm).of_eq rfl
    obtain ⟨_, m, s, _, _, rfl⟩ := gathers'.gathered.asked load List.mem_cons_self
    rw [perm.length_eq, List.length_cons] at count work
    rcases runLoad_advances only' loading gathers' joins' rfl (bodies.mono (goes Evolves).reads) with
      ⟨reason, after, next, ran, keeps, left, rules, holds⟩ |
      ⟨after, next, g', queued, ran, advances⟩
    · have asked (load : Load) (member : load ∈ rest) : ∃ m s, load = .request 0 m s := by
        obtain ⟨_, m, s, _, _, asked⟩ :=
          gathers'.gathered.asked load (List.mem_cons_of_mem _ member)
        exact ⟨m, s, asked⟩
      obtain ⟨w', graphs, failed, jobs, stage⟩ := stage_of_failGraph (only'.keeps keeps) loading left
        rules holds keeps.queue asked reason
      obtain ⟨slots', free', done, valid, perm'⟩ :=
        does _ (ran.trans failed) keeps.slots keeps.free jobs
      exact ⟨_, _, done, stage paths slots' free' valid perm', fun _ => by omega⟩
    · have pending : g'.pending = (rest ++ queued).length + 1 := by
        rw [advances.pending, count, List.length_append]
        omega
      obtain ⟨w', graphs, finished, jobs, stage⟩ :=
        stage_of_finishVisit advances.only advances.loading advances.gathers advances.joins pending
      obtain ⟨slots', free', done, valid, perm'⟩ :=
        does _ (ran.trans finished) advances.slots advances.free jobs
      have left : (loadsIn slots' ++ after.queue).Perm (rest ++ queued) := by
        rw [advances.queue]
        exact perm'.append_right queued
      have stage := stage paths slots' free' valid left
      rw [advances.promise] at stage
      refine ⟨_, _, done, stage, fun within => ?_⟩
      rw [work, advances.fewer paths within, List.length_append]
      omega
  | givenUp session g only own free here rules holds ended asked rejected work =>
    subst own
    obtain ⟨load, rest, slots, free', perm, goes, does⟩ := round_of_load free waits
    let taken : Worker (Store.Watched σ) := { worker with queue := [], slots, free := free' }
    have only' : taken.LoadsOnly g := only.of_eq rfl rfl
    obtain ⟨m, s, rfl⟩ := asked load (perm.mem_iff.mpr List.mem_cons_self)
    obtain ⟨after, next, ran, only'', left, rules', holds', queue, slots', free'', same⟩ :=
      runLoad_of_ended only' ended here holds (rules.symm ▸ bodies.mono (goes Evolves).reads)
    obtain ⟨slots', free', done, valid, perm'⟩ := does after ran slots' free'' only''.jobs
    have outstanding' := outstanding_of_empty free' perm' queue
    refine ⟨_, rest.length, done, .givenUp next g (only''.of_eq rfl rfl) rfl valid left
      (rules'.trans rules) holds' ended (fun load member => ?_) ?_ outstanding'.length_eq,
      fun _ => ?_⟩
    · exact asked load (perm.mem_iff.mpr (List.mem_cons_of_mem _ (outstanding'.mem_iff.mpr member)))
    · obtain ⟨reason, rejected⟩ := rejected
      exact ⟨reason, same.trans rejected⟩
    · rw [work, perm.length_eq]
      exact Nat.lt_succ_self _

/-- Before its graph is loaded a worker has a record for the root only. -/
structure OnlyRoot (graph : ImportGraph) (worker : Worker (Store.Watched σ)) (session : Session Nat)
    (root : Nat) : Prop where
  here : worker.session = some session
  rules : session.rules = graph.rules
  records : session.records = [(graph.root, root)]
  referenced : session.referenced = []
  holds : Store.Holds worker.store.store graph.content
  reads : worker.store.reads = []
  serves : worker.world.Serves root graph.root graph.requests
  loaded : (worker.world.module root).loaded = []
  jobs : worker.world.jobs = []
  requests : worker.world.requests = []
  queue : worker.queue = []
  slots : worker.slots = []
  free : worker.free = []
  graphs : worker.graphs = #[]

/-- The root is gathered, and all that it requests is left. -/
theorem OnlyRoot.gathers {root : Nat} (h : OnlyRoot graph worker session root)
    (after : Worker (Store.Watched σ)) (same : after.session = worker.session)
    (store : after.store = worker.store) (calm : worker.world.Calm after.world) {visited : List Nat}
    (met : graph.requests ≠ [] → root ∈ visited) (old : ∀ m ∈ visited, m = root) :
    after.Gathers graph session visited (graph.requests.map (.request 0 root)) := by
  have serves := h.serves.grows calm
  refine
    { here := same.trans h.here, rules := h.rules, holds := by rw [store]; exact h.holds
      gathered := ?_, serves := fun p m member => ?_, met := fun p m member some => ?_
      old := fun m member => by rw [old m member]; exact serves.size
      single := by rw [h.records]; exact List.nodup_singleton root }
  · rw [h.records, h.referenced, store, h.reads]
    exact .start graph root
  · rw [h.records] at member
    obtain ⟨rfl, rfl⟩ := Prod.mk.inj (List.mem_singleton.mp member)
    rw [ImportGraph.imports_root]
    exact serves
  · rw [h.records] at member
    obtain ⟨rfl, rfl⟩ := Prod.mk.inj (List.mem_singleton.mp member)
    rw [ImportGraph.imports_root] at some
    exact met some

/-- No specifier of the root stands for anything yet. -/
theorem OnlyRoot.joins {root : Nat} (h : OnlyRoot graph worker session root)
    (after : Worker (Store.Watched σ)) (calm : worker.world.Calm after.world) :
    after.Joins graph session (graph.requests.map (.request 0 root)) := by
  have none (s : Text.Units) : after.world.requested? root s = none := by
    rw [World.requested?, calm.module_eq h.serves.size, h.loaded]
    rfl
  refine ⟨fun p m member s n found => ?_, fun p m member s imported => ?_⟩
  · rw [h.records] at member
    obtain ⟨rfl, rfl⟩ := Prod.mk.inj (List.mem_singleton.mp member)
    rw [none] at found
    contradiction
  · rw [h.records] at member
    obtain ⟨rfl, rfl⟩ := Prod.mk.inj (List.mem_singleton.mp member)
    rw [ImportGraph.imports_root] at imported
    exact .inl (List.mem_map_of_mem imported)

/-- The visit of the root queues all that it requests. -/
theorem stage_of_visit {root promise : Nat} {w' : World} (h : OnlyRoot graph worker session root)
    (calm : worker.world.Calm w')
    (only : ({ worker with world := w', graphs := #[{ promise }] } :
      Worker (Store.Watched σ)).LoadsOnly { promise }) (fuel : Nat) :
    ∃ after, visit (fuel + 1) 0 root { worker with world := w', graphs := #[{ promise }] } =
        .ok ⟨⟩ after ∧
      ∀ paths, Stage graph promise paths after
        (graph.requests.length + graph.remaining paths [graph.root]) := by
  have kept := calm.module_eq h.serves.size
  have valid : IsFree worker.slots worker.free := by
    rw [h.slots, h.free]
    exact ⟨List.nodup_nil, fun i member => absurd member List.not_mem_nil⟩
  have queued (begun : Worker (Store.Watched σ)) (g : GraphLoad) (only : begun.LoadsOnly g)
      (loading : g.isLoading) (own : g.promise = promise)
      (queue : begun.queue = graph.requests.map (.request 0 root))
      (slots : begun.slots = worker.slots) (free : begun.free = worker.free)
      (gathers : begun.Gathers graph session g.visited (graph.requests.map (.request 0 root)))
      (joins : begun.Joins graph session (graph.requests.map (.request 0 root)))
      (count : g.pending = graph.requests.length + 1) :
      ∃ after, finishVisit 0 begun = .ok ⟨⟩ after ∧ ∀ paths, Stage graph promise paths after
        (graph.requests.length + graph.remaining paths [graph.root]) := by
    obtain ⟨w'', graphs, finished, _, stage⟩ := stage_of_finishVisit only loading gathers joins
      (by rw [List.length_map]; exact count)
    refine ⟨_, finished, fun paths => ?_⟩
    have stage := stage paths worker.slots worker.free valid (by rw [h.slots, queue]; rfl)
    rw [own, h.records, List.length_map, ← slots, ← free] at stage
    exact stage
  by_cases none : graph.requests = []
  · let begun : Worker (Store.Watched σ) := { worker with world := w', graphs := #[{ promise }] }
    have gathers : begun.Gathers graph session [] (graph.requests.map (.request 0 root)) :=
      h.gathers begun rfl rfl calm (absurd none) fun m member => absurd member List.not_mem_nil
    rw [visit_of_known only.graphs (.inl (by rw [kept, h.serves.made, none]))]
    exact queued begun _ only rfl rfl (by rw [none]; exact h.queue) rfl rfl gathers
      (h.joins begun calm) (by rw [none]; rfl)
  · let met : GraphLoad :=
      { promise, visited := [root], pending := 1 + graph.requests.length }
    let begun : Worker (Store.Watched σ) :=
      { worker with
        world := w', queue := graph.requests.map (.request 0 root), graphs := #[met] }
    have gathers : begun.Gathers graph session [root] (graph.requests.map (.request 0 root)) :=
      h.gathers begun rfl rfl calm (fun _ => List.mem_singleton_self root) fun m =>
        List.mem_singleton.mp
    have made := h.serves.made
    rw [visit_of_new only.graphs kept (by rw [made]; exact none) h.serves.status List.not_mem_nil
      h.loaded, made, h.queue]
    exact queued begun met (only.count rfl rfl rfl rfl) rfl rfl rfl rfl rfl gathers
      (h.joins begun calm) (Nat.add_comm _ _)

/-- Loading a graph begins with the root, whose requests are all that is left then. -/
theorem stage_of_loadGraph {root : Nat} (h : OnlyRoot graph worker session root) :
    ∃ promise after, loadGraph root worker = .ok promise after ∧
      ∀ paths, ∃ n, Stage graph promise paths after n ∧
        (graph.IsWithin paths → n = graph.remaining paths []) := by
  obtain ⟨w', promised, calm, new, pending, _⟩ := lift_newPromise h.requests
  let begun : Worker (Store.Watched σ) :=
    { worker with world := w', graphs := #[{ promise := worker.world.objects.size }] }
  have only : begun.LoadsOnly { promise := worker.world.objects.size } :=
    ⟨rfl, calm.jobs.trans h.jobs, calm.requests.trans h.requests, new, fun _ => pending⟩
  obtain ⟨after, visited, stage⟩ := stage_of_visit h calm only w'.modules.size
  refine ⟨worker.world.objects.size, after, ?_, fun paths => ⟨_, stage paths, fun within => ?_⟩⟩
  · rw [loadGraph, bind_of_ok promised, bind_of_ok (get_run _)]
    change (visit (w'.modules.size + 1) worker.graphs.size root >>= fun _ =>
      pure worker.world.objects.size) { worker with
        world := w', graphs := worker.graphs.push { promise := worker.world.objects.size } } = _
    rw [h.graphs]
    exact bind_of_ok visited _
  · rw [ImportGraph.remaining_cons within .refl List.not_mem_nil, ImportGraph.imports_root]

def HasLoaded (graph : ImportGraph) (promise : ObjectId) (worker : Worker (Store.Watched σ)) : Prop :=
  (∃ session, worker.session = some session ∧
      graph.Gathered session.records session.referenced (worker.store.reads.map Prod.fst) [] ∧
      worker.world.promiseState? promise = some (.fulfilled .undefined) ∧
      worker.Joins graph session [] ∧
      (∀ p m, (p, m) ∈ session.records → worker.world.Serves m p (graph.imports p)) ∧
      (session.records.map Prod.snd).Nodup) ∨
    ∃ reason, worker.world.promiseState? promise = some (.rejected reason)

theorem rounds_of_more {fuel : Nat} {worker after : Worker σ}
    (more : round worker = .ok true after) : rounds (fuel + 1) worker = rounds fuel after := by
  rw [rounds, bind_of_ok more]
  rfl

theorem rounds_of_none {fuel : Nat} {worker after : Worker σ}
    (none : round worker = .ok false after) : rounds (fuel + 1) worker = .ok ⟨⟩ after := by
  rw [rounds, bind_of_ok none]
  rfl

/-- A round that finds no load left ends the loading. -/
theorem Stage.last (h : Stage graph promise paths worker n) (done : worker.outstanding = []) :
    ∃ after, round worker = .ok false after ∧ HasLoaded graph promise after := by
  cases h with
  | gathering session g only own free gathers joins waits ended work =>
    obtain ⟨slots, free', last, _⟩ := round_of_idle free only.jobs done
    have gathered := gathers.gathered
    rw [done] at gathered joins
    exact ⟨_, last, .inl ⟨session, gathers.here, gathered, ended done, joins.of_eq rfl, gathers.serves,
      gathers.single⟩⟩
  | givenUp session g only own free here rules holds ended asked rejected work =>
    obtain ⟨slots, free', last, _⟩ := round_of_idle free only.jobs done
    exact ⟨_, last, .inr rejected⟩

/-- The rounds end with the graph loaded or given up, unless there are too few of them. -/
theorem Stage.run (h : Stage graph promise paths worker n) (limit : Nat)
    (bodies : (Script.left (rounds limit) worker).store.HasBodies graph.rules graph.content) :
    (∃ after, rounds limit worker = .ok ⟨⟩ after ∧ HasLoaded graph promise after) ∨
      (∃ after, rounds limit worker = .error .exhausted after) ∧
        (graph.IsWithin paths → limit ≤ n) := by
  induction limit generalizing worker n with
  | zero => exact .inr ⟨⟨worker, rfl⟩, fun _ => Nat.zero_le n⟩
  | succ fuel ih =>
    by_cases done : worker.outstanding = []
    · obtain ⟨after, last, loaded⟩ := h.last done
      exact .inl ⟨after, rounds_of_none last, loaded⟩
    · have evolves : (Script.left round worker).Evolves (Script.left (rounds (fuel + 1)) worker) :=
        Script.Obeys.left_bind worker fun more => by
          split
          · exact obeys_rounds fuel
          · exact .pure _
      obtain ⟨after, n', more, stage, fewer⟩ := h.step (bodies.mono evolves.reads) done
      rw [Script.left, rounds_of_more more] at bodies
      rw [rounds_of_more more]
      refine (ih stage bodies).imp_right (And.imp_right fun bound within => ?_)
      exact Nat.lt_of_le_of_lt (bound within) (fewer within)

end Worker
end Isolate
