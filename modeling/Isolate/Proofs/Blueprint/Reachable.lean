import Isolate.Proofs.Blueprint.Life
import Isolate.Proofs.Worker.Rounds

/-!
# What a build loads

A build that succeeds has loaded exactly what its root reaches through imports, however the imports are
connected, and has read each of those files once. It does no more rounds than there are imports, and one
to find that none is left.
-/

namespace Isolate

open Script Hosted

theorem Path.normalize_absolute (directory p : Path) :
    (directory.absolute p).normalize = directory.absolute p := by
  rw [absolute]
  split <;> exact normalize_normalize _

/-- The cached paths are those with a record. -/
theorem Session.mem_cachedPaths {ρ : Type} {session : Session ρ} {q : Path}
    (canonical : ∀ p ∈ session.records.map Prod.fst, p.normalize = p) :
    q ∈ session.cachedPaths ↔ q ∈ session.records.map Prod.fst := by
  have inserted (records : List (Path × ρ)) (sorted : List Path)
      (canonical : ∀ p ∈ records.map Prod.fst, p.normalize = p)
      (canonical' : ∀ p ∈ sorted, p.normalize = p) :
      q ∈ records.foldl (fun sorted record => record.1.insertSorted sorted) sorted ↔
        q ∈ records.map Prod.fst ∨ q ∈ sorted := by
    induction records generalizing sorted with
    | nil => simp
    | cons record records ih =>
      have first := canonical record.1 List.mem_cons_self
      have rest := fun p member => canonical p (List.mem_cons_of_mem record.1 member)
      rw [List.foldl_cons, ih _ rest fun p member => ?_, Path.mem_insertSorted first canonical',
        List.map_cons, List.mem_cons]
      · tauto
      · rcases Path.mem_of_mem_insertSorted member with rfl | member
        · exact first
        · exact canonical' p member
  refine (inserted session.records [] canonical (by simp)).trans ?_
  simp

namespace Blueprint

section Loading

variable {σ : Type} [Store.Source σ] {worker after last : Worker σ} {promise : ObjectId}

omit [Store.Source σ] in
theorem exists_of_value? {α : Type} {action : Hosted σ α} {value : α}
    (h : action.value? worker = some value) : ∃ after, action worker = .ok value after := by
  rw [value?] at h
  split at h
  next after done => exact ⟨after, by rw [done, Option.some.inj h]⟩
  next => contradiction

/-- What is settled without a failure is a promise that was fulfilled when the rounds had ended. -/
theorem settled_ok (h : settled promise worker = .ok ⟨⟩ after) :
    rounds stepLimit worker = .ok ⟨⟩ after ∧
      ∃ value, after.world.promiseState? promise = some (.fulfilled value) := by
  cases ran : rounds stepLimit worker with
  | error abrupt stopped =>
    have drained : drain worker = .error abrupt (clear stopped) := by rw [drain, ran]
    rw [settled, bind_of_error drained] at h
    contradiction
  | ok _ ended =>
    have drained : drain worker = .ok ⟨⟩ ended := by rw [drain, ran]
    rw [settled, bind_of_ok drained, bind_of_ok (get_run ended)] at h
    have never : (lift (newFailure .error "top-level evaluation never settled") >>= fun error =>
        throw (.thrown error none) : Hosted σ PUnit) ended ≠ .ok ⟨⟩ after := by
      cases made : lift (newFailure .error "top-level evaluation never settled") ended with
      | ok error worker =>
        rw [bind_of_ok made]
        intro clash
        contradiction
      | error abrupt worker =>
        rw [bind_of_error made]
        intro clash
        contradiction
    cases state : ended.world.promiseState? promise with
    | none =>
      rw [state] at h
      exact absurd h never
    | some state' =>
      rw [state] at h
      cases state' with
      | fulfilled value =>
        obtain ⟨-, rfl⟩ := EStateM.Result.ok.inj h
        exact ⟨rfl, value, state⟩
      | rejected reason => contradiction
      | pending reactions => exact absurd h never

/-- The end of the loading of a root: a failure is reported, or the graph is linked. -/
def linkRoot (root refused : Nat) (label : String) :
    Option Abrupt → Hosted σ (Except Error PUnit)
  | some abrupt => do
    let worker ← get
    let text := (worker.world.diagnostic abrupt).toList
    match worker.session.map (·.takeFailure text true) with
    | some (some failure, session) => do
      set { worker with session := some session }
      pure (.error failure)
    | _ => pure (.error (.ofFailure worker.world abrupt label refused))
  | none => do
    modifySession (·.clearFailures)
    match ← lift (capture (linkModule root)) with
    | .ok _ => pure (.ok ⟨⟩)
    | .error abrupt => do pure (.error (.ofDefinition (← get).world abrupt label))

section Linking

variable {root : Nat} {w : World}

omit [Store.Source σ] in
/-- A loaded root that can be linked is linked. -/
theorem linkRoot_of_ok (linked : linkModule root worker.world = .ok ⟨⟩ w) (refused : Nat) (label : String) :
    linkRoot root refused label none worker = .ok (.ok ⟨⟩) { worker with
      session := worker.session.map (·.clearFailures), world := { w with requests := [] }
      queue := worker.queue ++ w.requests.map .dynamic } := by
  let cleared : Worker σ := { worker with session := worker.session.map (·.clearFailures) }
  have done : lift (capture (linkModule root)) cleared = .ok (.ok ⟨⟩) { cleared with
      world := { w with requests := [] }, queue := worker.queue ++ w.requests.map .dynamic } := by
    rw [lift, capture, linked]
  exact bind_of_ok done _

omit [Store.Source σ] in
/-- The failure to link a loaded root is reported. -/
theorem linkRoot_of_error {abrupt : Abrupt} (failed : linkModule root worker.world = .error abrupt w)
    (refused : Nat) (label : String) :
    linkRoot root refused label none worker =
      .ok (.error (.ofDefinition { w with requests := [] } abrupt label)) { worker with
        session := worker.session.map (·.clearFailures), world := { w with requests := [] }
        queue := worker.queue ++ w.requests.map .dynamic } := by
  let cleared : Worker σ := { worker with session := worker.session.map (·.clearFailures) }
  have done : lift (capture (linkModule root)) cleared = .ok (.error abrupt) { cleared with
      world := { w with requests := [] }, queue := worker.queue ++ w.requests.map .dynamic } := by
    rw [lift, capture, failed]
  exact bind_of_ok done _

omit [Store.Source σ] in
/-- A root is linked only if its graph was loaded, and linking forgets the failures and no more. -/
theorem linkRoot_ok {refused : Nat} {label : String} {failure : Option Abrupt}
    (h : linkRoot root refused label failure worker = .ok (.ok ⟨⟩) last) :
    failure = none ∧ last.session = worker.session.map (·.clearFailures) ∧
      last.store = worker.store ∧
      ∃ w, linkModule root worker.world = .ok ⟨⟩ w ∧ last.world = { w with requests := [] } := by
  cases failure with
  | some abrupt =>
    rw [linkRoot, bind_of_ok (get_run worker)] at h
    generalize worker.session.map _ = taken at h
    obtain _ | ⟨_ | failure, session⟩ := taken <;> cases (EStateM.Result.ok.inj h).1
  | none =>
    cases linked : linkModule root worker.world with
    | ok _ w =>
      rw [linkRoot_of_ok linked] at h
      obtain ⟨-, rfl⟩ := EStateM.Result.ok.inj h
      exact ⟨rfl, rfl, rfl, w, rfl, rfl⟩
    | error abrupt w =>
      rw [linkRoot_of_error linked] at h
      cases (EStateM.Result.ok.inj h).1

end Linking

/-- The end of a build whose root is to be loaded in some way. -/
def finish (root refused : Nat) (label : String) (loading : Hosted σ PUnit) :
    Hosted σ (Nat × Except Error PUnit) := do
  let failure ← caught loading
  pure (root, ← linkRoot root refused label failure)

omit [Store.Source σ] in
theorem finish_congr {root refused : Nat} {label : String} {loading loading' : Hosted σ PUnit}
    {worker' : Worker σ} (h : loading worker = loading' worker') :
    finish root refused label loading worker = finish root refused label loading' worker' := by
  have same : caught loading worker = caught loading' worker' := by rw [caught, caught, h]
  cases tried : caught loading' worker' with
  | ok failure after => rw [finish, finish, bind_of_ok (same.trans tried), bind_of_ok tried]
  | error abrupt stopped =>
    rw [finish, finish, bind_of_error (same.trans tried), bind_of_error tried]

omit [Store.Source σ] in
/-- A build that ends well has loaded its root. -/
theorem finish_ok {root refused id : Nat} {label : String} {loading : Hosted σ PUnit}
    (h : finish root refused label loading worker = .ok (id, .ok ⟨⟩) last) :
    id = root ∧ ∃ ended, loading worker = .ok ⟨⟩ ended ∧
      last.session = ended.session.map (·.clearFailures) ∧ last.store = ended.store ∧
      ∃ w, linkModule root ended.world = .ok ⟨⟩ w ∧ last.world = { w with requests := [] } := by
  have linked {failure : Option Abrupt} {after : Worker σ}
      (tried : caught loading worker = .ok failure after) :
      id = root ∧ linkRoot root refused label failure after = .ok (.ok ⟨⟩) last := by
    rw [finish, bind_of_ok tried] at h
    cases done : linkRoot root refused label failure after with
    | error abrupt stopped =>
      rw [bind_of_error done] at h
      contradiction
    | ok result linked =>
      rw [bind_of_ok done] at h
      obtain ⟨same, rfl⟩ := EStateM.Result.ok.inj h
      obtain ⟨rfl, rfl⟩ := Prod.mk.inj same
      exact ⟨rfl, rfl⟩
  cases loaded : loading worker with
  | error abrupt stopped =>
    have failed : caught loading worker = .ok (some abrupt) stopped := by rw [caught, loaded]
    exact absurd (linkRoot_ok (linked failed).2).1 (by simp)
  | ok _ ended =>
    have fine : caught loading worker = .ok none ended := by rw [caught, loaded]
    exact ⟨(linked fine).1, ended, rfl, (linkRoot_ok (linked fine).2).2⟩

def enterRoot (blueprint : Blueprint) (origin : Origin) (tree : ModuleTree) : Hosted σ ObjectId := do
  let root ← lift (blueprint.addRoot origin tree)
  modifySession (·.enter origin root)
  loadGraph root

/-- The promise for the end of a build's loading, and the worker with which the build begins to do
rounds: the root is entered, and its requests are made. -/
def start (blueprint : Blueprint) (globals : Globals) (host : Host σ) :
    Option (ObjectId × Worker σ) :=
  match host.session.bind, blueprint.newWorld globals,
    Grammar.readModule blueprint.source.toList with
  | .ok session, .ok w, .ok tree =>
    match blueprint.enterRoot (blueprint.rootOrigin host.directory) tree
      (Host.worker { host with session } w) with
    | .ok promise worker => some (promise, worker)
    | .error _ _ => none
  | _, _, _ => none

omit [Store.Source σ] in
theorem start_eq_some_iff {blueprint : Blueprint} {globals : Globals} {host : Host σ} :
    blueprint.start globals host = some (promise, worker) ↔
      ∃ session w tree, host.session.bind = .ok session ∧ blueprint.newWorld globals = .ok w ∧
        Grammar.readModule blueprint.source.toList = .ok tree ∧
        blueprint.enterRoot (blueprint.rootOrigin host.directory) tree
          (Host.worker { host with session } w) = .ok promise worker := by
  constructor
  · intro started
    rw [start] at started
    split at started
    next session w tree bound made read =>
      refine ⟨session, w, tree, bound, made, read, ?_⟩
      generalize blueprint.enterRoot _ tree _ = entered at started ⊢
      cases entered with
      | ok promise' worker' =>
        obtain ⟨rfl, rfl⟩ := Prod.mk.inj (Option.some.inj started)
        rfl
      | error abrupt stopped => contradiction
    next => contradiction
  · rintro ⟨session, w, tree, bound, made, read, entered⟩
    rw [start, bound, made, read]
    dsimp only
    rw [entered]

/-- A build enters its root and loads the graph of it. -/
theorem begin_of_added {make : Action Nat} {root : Nat} {made : Worker σ}
    (added : lift make worker = .ok root made) (origin : Origin) (refused : Nat) (label : String) :
    begin make origin refused label worker =
      finish root refused label (loadGraph root >>= settled)
        { made with session := made.session.map (·.enter origin root) } := by
  have linked : finish root refused label (loadGraph root >>= settled) =
      (loadRoot root refused label >>= fun result => pure (root, result) : Hosted σ _) :=
    (bind_assoc _ _ _).symm
  rw [linked]
  refine (bind_of_ok added _).trans ?_
  cases origin with
  | anonymous =>
    have kept : made.session.map (fun (session : Session Nat) => session.enter .anonymous root) =
        made.session := Option.map_id'
    rw [kept]
  | file path => rfl

/-- A build that has made its requests is what becomes of them. -/
theorem buildModule_of_entered {blueprint : Blueprint} {globals : Globals} {host : Host σ}
    {session : Session Nat} {w : World} {tree : ModuleTree} {root : Nat} {made begun : Worker σ}
    (bound : host.session.bind = .ok session) (new : blueprint.newWorld globals = .ok w)
    (read : Grammar.readModule blueprint.source.toList = .ok tree)
    (added : lift (blueprint.addRoot (blueprint.rootOrigin host.directory) tree)
      (Host.worker { host with session } w) = .ok root made)
    (entered : loadGraph root { made with
      session := made.session.map (·.enter (blueprint.rootOrigin host.directory) root) } =
        .ok promise begun) :
    blueprint.buildModule globals host =
      conclude blueprint.label w.refusals.length { host with session }
        (finish root w.refusals.length blueprint.label (settled promise) begun) := by
  have built : blueprint.buildModule globals host =
      conclude blueprint.label w.refusals.length { host with session }
        (begin (blueprint.addRoot (blueprint.rootOrigin host.directory) tree)
          (blueprint.rootOrigin host.directory) w.refusals.length blueprint.label
          (Host.worker { host with session } w)) := by
    rw [buildModule, bound]
    dsimp only
    rw [new]
    dsimp only
    rw [read]
    rfl
  rw [built, begin_of_added added, finish_congr (bind_of_ok entered settled)]

/-- A build whose rounds have begun is what becomes of them. -/
theorem buildModule_of_start {blueprint : Blueprint} {globals : Globals} {host : Host σ}
    {begun : Worker σ} (started : blueprint.start globals host = some (promise, begun)) :
    ∃ session root refused, blueprint.buildModule globals host =
      conclude blueprint.label refused { host with session }
        (finish root refused blueprint.label (settled promise) begun) := by
  obtain ⟨session, w, tree, bound, made, read, entered⟩ := start_eq_some_iff.mp started
  cases added : lift (blueprint.addRoot (blueprint.rootOrigin host.directory) tree)
      (Host.worker { host with session } w) with
  | error abrupt stopped =>
    rw [enterRoot, bind_of_error added] at entered
    contradiction
  | ok root after =>
    rw [enterRoot, bind_of_ok added] at entered
    exact ⟨session, root, w.refusals.length, buildModule_of_entered bound made read added entered⟩

omit [Store.Source σ] in
theorem world_of_conclude {label : String} {refused : Nat} {host : Host σ}
    {action : Hosted σ (Nat × Except Error PUnit)} {worker : Worker σ} {module : BuiltModule}
    (h : (conclude label refused host (action worker)).1 = .ok module) :
    module.world = (action.final worker).world := by
  rw [final]
  unfold conclude at h
  split at h
  next done =>
    rw [done, ← Except.ok.inj h]
  next => contradiction
  next => contradiction

/-- A build that succeeds has added its root to a new world, has loaded the graph of the root to the end
and has linked it, and has then forgotten the failures and no more. -/
theorem buildModule_links {blueprint : Blueprint} {globals : Globals} {host : Host σ}
    {module : BuiltModule} (h : (blueprint.buildModule globals host).1 = .ok module) :
    ∃ session w tree made promise begun ended linked, host.session.bind = .ok session ∧
      blueprint.newWorld globals = .ok w ∧ Grammar.readModule blueprint.source.toList = .ok tree ∧
      lift (blueprint.addRoot (blueprint.rootOrigin host.directory) tree)
        (Host.worker { host with session } w) = .ok module.root made ∧
      loadGraph module.root { made with
        session := made.session.map (·.enter (blueprint.rootOrigin host.directory) module.root) } =
          .ok promise begun ∧
      blueprint.start globals host = some (promise, begun) ∧ settled promise begun = .ok ⟨⟩ ended ∧
      (∀ session, ended.session = some session →
        (blueprint.buildModule globals host).2.session = session.clearFailures) ∧
      (blueprint.buildModule globals host).2.store = ended.store ∧
      linkModule module.root ended.world = .ok ⟨⟩ linked ∧
      module.world = { linked with requests := [] } := by
  rcases blueprint.buildModule_cases globals host with ⟨error, built⟩ | ⟨session, bound, cases⟩
  · rw [built] at h
    contradiction
  rcases cases with ⟨error, built⟩ | ⟨w, tree, made, read, built⟩
  · rw [built] at h
    contradiction
  rw [built] at h ⊢
  have value := value?_of_conclude h
  have world := world_of_conclude h
  rw [conclude_host]
  cases added : lift (blueprint.addRoot (blueprint.rootOrigin host.directory) tree)
      (Host.worker { host with session } w) with
  | error abrupt stopped =>
    rw [begin, value?_of_error (bind_of_error added _)] at value
    contradiction
  | ok root after =>
    have begun := begin_of_added added (blueprint.rootOrigin host.directory) w.refusals.length blueprint.label
    rw [value?_congr begun] at value
    rw [final_congr begun] at world ⊢
    obtain ⟨last, done⟩ := exists_of_value? value
    obtain ⟨rfl, ended, loaded, left, store, linked, links, here⟩ := finish_ok done
    rw [final_of_ok done] at world ⊢
    cases graph : loadGraph module.root { after with
        session := after.session.map (·.enter (blueprint.rootOrigin host.directory) module.root) } with
    | error abrupt stopped =>
      rw [bind_of_error graph] at loaded
      contradiction
    | ok promise begun =>
      rw [bind_of_ok graph] at loaded
      refine ⟨session, w, tree, after, promise, begun, ended, linked, bound, made, read, added, graph,
        start_eq_some_iff.mpr ⟨session, w, tree, bound, made, read, (bind_of_ok added _).trans graph⟩,
        loaded, fun next known => ?_, store, links, world.trans here⟩
      rw [Host.leave, left, known]
      rfl

/-- A build that succeeds has begun to do rounds. -/
theorem start_of_ok {blueprint : Blueprint} {globals : Globals} {host : Host σ}
    {module : BuiltModule} (h : (blueprint.buildModule globals host).1 = .ok module) :
    ∃ promise begun, blueprint.start globals host = some (promise, begun) := by
  obtain ⟨_, _, _, _, promise, begun, _, _, _, _, _, _, _, started, _⟩ := buildModule_links h
  exact ⟨promise, begun, started⟩

/-- A build that succeeds has done its rounds to their end, and has then forgotten the failures and no
more. -/
theorem buildModule_ok {blueprint : Blueprint} {globals : Globals} {host : Host σ}
    {module : BuiltModule} (h : (blueprint.buildModule globals host).1 = .ok module) :
    ∃ promise begun ended, blueprint.start globals host = some (promise, begun) ∧
      rounds stepLimit begun = .ok ⟨⟩ ended ∧
      (∃ value, ended.world.promiseState? promise = some (.fulfilled value)) ∧
      (∀ session, ended.session = some session →
        (blueprint.buildModule globals host).2.session = session.clearFailures) ∧
      (blueprint.buildModule globals host).2.store = ended.store := by
  obtain ⟨_, _, _, _, promise, begun, ended, _, _, _, _, _, _, started, loaded, left, store, _⟩ :=
    buildModule_links h
  obtain ⟨ran, fulfilled⟩ := settled_ok loaded
  exact ⟨promise, begun, ended, started, ran, fulfilled, left, store⟩

end Loading

section Graph

variable {σ : Type} [Store.Source σ]

/-- The graph of imports of a build whose root comes from a file. -/
def importGraph (blueprint : Blueprint) (rules : Rules)
    (content : Path → Except Store.Error Bytes) (directory path : Path) : ImportGraph where
  rules := rules
  content := content
  root := directory.absolute path
  canonical := Path.normalize_absolute directory path
  requests :=
    match Grammar.readModule blueprint.source.toList with
    | .ok tree => tree.requests
    | .error _ => []

/-- A host for a build: its session has served no other, and its store was not read. -/
def freshHost (rules : Rules) (store : σ) (directory : Path) (log : List Text.Units) :
    Host (Store.Watched σ) :=
  { session := { rules }, store := { store }, directory, log }

omit [Store.Source σ] in
/-- A new world has nothing to do. -/
theorem calm_newWorld {blueprint : Blueprint} {globals : Globals} {w : World}
    (made : blueprint.newWorld globals = .ok w) : w.jobs = [] ∧ w.requests = [] := by
  rw [newWorld] at made
  split at made
  next installed =>
    obtain rfl := Except.ok.inj made
    have calm := globals.calms_install _ _ _ installed
    exact ⟨calm.jobs, calm.requests⟩
  next => contradiction

variable {blueprint : Blueprint} {globals : Globals} {rules : Rules} {store : σ}
  {directory path : Path} {log : List Text.Units} {content : Path → Except Store.Error Bytes}
  {promise : ObjectId} {begun : Worker (Store.Watched σ)}

def freshWorker (rules : Rules) (store : σ) (directory : Path) (log : List Text.Units) (w : World) :
    Worker (Store.Watched σ) :=
  Host.worker
    { freshHost rules store directory log with session := { rules, isBound := true } } w

/-- When the root is added and entered, there is a record of it and of nothing else. -/
theorem onlyRoot_of_addRoot (directory : Path) (log : List Text.Units) {w : World}
    {tree : ModuleTree} (file : blueprint.origin = .file path)
    (holds : Store.Holds store content) (made : blueprint.newWorld globals = .ok w)
    (read : Grammar.readModule blueprint.source.toList = .ok tree) :
    ∃ root after, lift (blueprint.addRoot (blueprint.rootOrigin directory) tree)
        (freshWorker rules store directory log w) = .ok root after ∧
      ∃ session, Worker.OnlyRoot (blueprint.importGraph rules content directory path)
        { after with session := after.session.map (·.enter (blueprint.rootOrigin directory) root) }
        session root := by
  have origin : blueprint.rootOrigin directory = .file (directory.absolute path) := by
    rw [rootOrigin, file]
  have asked : (blueprint.importGraph rules content directory path).requests = tree.requests := by
    rw [importGraph, read]
  obtain ⟨jobs, requests⟩ := calm_newWorld made
  let first := freshWorker rules store directory log w
  have added : Runs (blueprint.addRoot (blueprint.rootOrigin directory) tree) first.world
      fun root w' => (root = first.world.modules.size ∧ ∃ module, first.world.Grows w' [module] ∧
        w'.HasNew module (blueprint.rootOrigin directory) tree.requests) ∧ w'.requests = [] := by
    refine (runs_addCode _ tree first.world).mono fun root w' made => ⟨made, ?_⟩
    obtain ⟨_, _, grown, _⟩ := made
    exact grown.requests.trans requests
  obtain ⟨root, w', done, rfl, module, grown, new⟩ := lift_of_runs added
  rw [origin, ← asked] at new
  obtain ⟨serves, same⟩ := new.serves grown
  refine ⟨_, _, done, Session.register { rules, isBound := true } (directory.absolute path)
    first.world.modules.size, ?_⟩
  exact
    { here := by rw [origin]; rfl, rules := rfl, records := rfl, referenced := rfl, holds, reads := rfl
      serves, loaded := by rw [← new.loaded, ← same], jobs := grown.jobs.trans jobs
      requests := grown.requests.trans requests, queue := rfl, slots := rfl, free := rfl
      graphs := rfl }

/-- The rounds of a build begin with the requests of the root. -/
theorem stage_of_start (file : blueprint.origin = .file path) (holds : Store.Holds store content)
    (started : blueprint.start globals (freshHost rules store directory log) = some (promise, begun))
    (paths : Finset Path) :
    ∃ n, Worker.Stage (blueprint.importGraph rules content directory path) promise paths begun n ∧
      ((blueprint.importGraph rules content directory path).IsWithin paths →
        n = (blueprint.importGraph rules content directory path).remaining paths []) := by
  obtain ⟨_, w, tree, bound, made, read, run⟩ := start_eq_some_iff.mp started
  obtain rfl := Except.ok.inj bound
  obtain ⟨root, after, added, session, entered⟩ :=
    onlyRoot_of_addRoot directory log file holds made read
  obtain ⟨promise', begun', loaded, stage⟩ := Worker.stage_of_loadGraph entered
  have run' : blueprint.enterRoot (blueprint.rootOrigin directory) tree
      (freshWorker rules store directory log w) = .ok promise' begun' :=
    (bind_of_ok added _).trans loaded
  obtain ⟨rfl, rfl⟩ := EStateM.Result.ok.inj (run'.symm.trans run)
  exact stage paths

/-- A build whose root comes from a file, while every CommonJS file is the body of a function. If the
build succeeds, the cached paths are the key of the root and all that it reaches; the referenced paths are
those that the modules at cached paths import; and each cached path but the root was read once, and no
other path was read. A build fails before its rounds begin, or is what becomes of its rounds; and if
finitely many of the paths that are reached can be read, the rounds end by themselves: there are no more
of them than imports of these files and of the root, and a last one. -/
theorem loads_exactly_reachable (blueprint : Blueprint) (globals : Globals) (rules : Rules) (store : σ)
    (directory : Path) (log : List Text.Units) {path : Path}
    {content : Path → Except Store.Error Bytes} (file : blueprint.origin = .file path)
    (holds : Store.Holds store content) (bodies : Wrapper.AreBodies rules content) :
    let host := freshHost rules store directory log
    let graph := blueprint.importGraph rules content directory path
    let built := blueprint.buildModule globals host
    (∀ module, built.1 = .ok module →
        (∀ q, q ∈ built.2.session.cachedPaths ↔ graph.Reaches q) ∧
        (∀ q, q ∈ built.2.session.referenced ↔
          ∃ p ∈ built.2.session.cachedPaths, graph.Names p q) ∧
        ∀ q, (built.2.store.reads.map Prod.fst).count q =
          if q ∈ built.2.session.cachedPaths ∧ q ≠ graph.root then 1 else 0) ∧
      (blueprint.start globals host = none → ∃ error, built.1 = .error error) ∧
      ∀ promise begun, blueprint.start globals host = some (promise, begun) →
        (∃ session root refused, built = conclude blueprint.label refused { host with session }
          (finish root refused blueprint.label (settled promise) begun)) ∧
        ∀ files : Finset Path, (∀ p bytes, graph.Reaches p → content p = .ok bytes → p ∈ files) →
          ∀ limit, ∑ p ∈ insert graph.root files, (graph.imports p).length < limit →
            ∃ ended, rounds limit begun = .ok ⟨⟩ ended := by
  intro host graph built
  refine ⟨fun module done => ?_, fun never => ?_, fun promise begun started =>
    ⟨buildModule_of_start started, fun files readable limit enough => ?_⟩⟩
  · obtain ⟨promise, begun, ended, started, ran, ⟨value, fulfilled⟩, left, store'⟩ :=
      buildModule_ok done
    obtain ⟨n, stage, _⟩ := stage_of_start file holds started ∅
    rcases stage.run stepLimit fun q _ => bodies q with ⟨after, ran', loaded⟩ | ⟨⟨_, exhausted⟩, _⟩
    · obtain ⟨-, rfl⟩ := EStateM.Result.ok.inj (ran.symm.trans ran')
      rcases loaded with ⟨session, here, gathered, _⟩ | ⟨reason, rejected⟩
      · have same : built.2.session = session.clearFailures := left session here
        have cached {q : Path} :
            q ∈ built.2.session.cachedPaths ↔ q ∈ session.records.map Prod.fst := by
          rw [same]
          exact Session.mem_cachedPaths fun p member => (gathered.reached p member).normalize_eq
        refine ⟨fun q => cached.trans gathered.mem_iff_reaches, fun q => ?_, fun q => ?_⟩
        · simp only [cached]
          rw [same]
          exact gathered.mem_referenced_iff
        · simp only [cached]
          rw [store']
          exact gathered.count_reads q
      · rw [fulfilled] at rejected
        exact nomatch Option.some.inj rejected
    · rw [ran] at exhausted
      contradiction
  · cases done : built.1 with
    | error error => exact ⟨error, rfl⟩
    | ok module =>
      obtain ⟨promise, begun, started⟩ := start_of_ok done
      rw [never] at started
      contradiction
  · have within := ImportGraph.isWithin_of_readable readable
    obtain ⟨n, stage, bound⟩ := stage_of_start file holds started (insert graph.root files)
    rw [← ImportGraph.remaining_nil, ← bound within] at enough
    rcases stage.run limit fun q _ => bodies q with ⟨ended, ran, _⟩ | ⟨_, few⟩
    · exact ⟨ended, ran⟩
    · exact absurd (few within) (Nat.not_le_of_lt enough)

end Graph

/-- A file that is read from memory is one of the files there. -/
theorem mem_of_read {store : Store.Memory} {path : Path} {bytes : Bytes}
    (read : store.read path = .ok bytes) : ∃ key, (key, bytes) ∈ store.files := by
  have found (key : String) (files : List (String × Bytes))
      (found : Store.Memory.find? key files = some bytes) : (key, bytes) ∈ files := by
    induction files with
    | nil => contradiction
    | cons file files ih =>
      rw [Store.Memory.find?] at found
      split at found
      next same =>
        rw [← same, ← Option.some.inj found]
        exact List.mem_cons_self
      next => exact List.mem_cons_of_mem _ (ih found)
  rw [Store.Memory.read] at read
  split at read
  next content here => exact ⟨_, found _ _ (Except.ok.inj read ▸ here)⟩
  next => contradiction

/-- Files in memory that are all bodies of functions. -/
theorem areBodies_of_files {store : Store.Memory} (rules : Rules)
    (each : ∀ entry ∈ store.files,
      (Text.Utf8.decode entry.2).toOption.all fun text => decide (Wrapper.IsBody text)) :
    Wrapper.AreBodies rules store.read := by
  intro path content text _ read decoded
  obtain ⟨key, member⟩ := mem_of_read read
  have body := each _ member
  dsimp only at body
  rw [decoded, Except.toOption, Option.all_some] at body
  exact of_decide_eq_true body

theorem exists_of_isOk {ε α : Type} {result : Except ε α} (h : result.isOk) :
    ∃ value, result = .ok value := by
  cases result with
  | ok value => exact ⟨value, rfl⟩
  | error _ => contradiction

/-- A module that imports itself, the root and a CommonJS file, and a module that nothing imports. -/
def cycleFiles : Store.Recording :=
  { inner := .ofList
      [(⟨"/w/a.mjs"⟩,
          Text.Utf8.encode "import './b.cjs'; import './a.mjs'; import './index.mjs';".toList),
        (⟨"/w/b.cjs"⟩, Text.Utf8.encode "exports.x = 1;".toList),
        (⟨"/w/c.mjs"⟩, Text.Utf8.encode "import './d.mjs';".toList)] }

def cycleRules : Rules :=
  (Rules.compile [⟨"ESModule", ["**/*.mjs"]⟩, ⟨"CommonJS", ["**/*.cjs"]⟩]).toOption.getD []

def cycle : Blueprint :=
  { source := "import './a.mjs'; import '../w/b.cjs';", origin := .file ⟨"/w/./index.mjs"⟩ }

/-- Of the files in a cycle those are loaded that the root reaches, in no more than six rounds. -/
theorem loads_of_cycle :
    (∀ q, (cycle.importGraph cycleRules cycleFiles.inner.read ⟨"/"⟩ ⟨"/w/./index.mjs"⟩).Reaches q ↔
        q ∈ [⟨"/w/a.mjs"⟩, ⟨"/w/b.cjs"⟩, ⟨"/w/index.mjs"⟩]) ∧
      ∃ promise begun,
        cycle.start [] (freshHost cycleRules cycleFiles ⟨"/"⟩ []) = some (promise, begun) ∧
        ∀ limit, 5 < limit → ∃ ended, rounds limit begun = .ok ⟨⟩ ended := by
  have bodies : Wrapper.AreBodies cycleRules cycleFiles.inner.read :=
    areBodies_of_files cycleRules (by decide +kernel)
  obtain ⟨loaded, _, ends⟩ := loads_exactly_reachable cycle [] cycleRules cycleFiles ⟨"/"⟩ [] rfl
    (Store.holds_recording cycleFiles) bodies
  have fine : (cycle.buildModule [] (freshHost cycleRules cycleFiles ⟨"/"⟩ [])).1.isOk := by
    decide +kernel
  have cached : (cycle.buildModule [] (freshHost cycleRules cycleFiles ⟨"/"⟩ [])).2.session.cachedPaths =
      [⟨"/w/a.mjs"⟩, ⟨"/w/b.cjs"⟩, ⟨"/w/index.mjs"⟩] := by decide +kernel
  have begins : (cycle.start [] (freshHost cycleRules cycleFiles ⟨"/"⟩ [])).isSome := by
    decide +kernel
  obtain ⟨⟨promise, begun⟩, started⟩ := Option.isSome_iff_exists.mp begins
  have reached (q : Path) :
      (cycle.importGraph cycleRules cycleFiles.inner.read ⟨"/"⟩ ⟨"/w/./index.mjs"⟩).Reaches q ↔
        q ∈ [⟨"/w/a.mjs"⟩, ⟨"/w/b.cjs"⟩, ⟨"/w/index.mjs"⟩] := by
    obtain ⟨module, done⟩ := exists_of_isOk fine
    have exactly := (loaded module done).1 q
    rw [cached] at exactly
    exact exactly.symm
  have few : ∑ p ∈
      insert (cycle.importGraph cycleRules cycleFiles.inner.read ⟨"/"⟩ ⟨"/w/./index.mjs"⟩).root
        {⟨"/w/a.mjs"⟩, ⟨"/w/b.cjs"⟩, ⟨"/w/index.mjs"⟩},
      ((cycle.importGraph cycleRules cycleFiles.inner.read ⟨"/"⟩ ⟨"/w/./index.mjs"⟩).imports
        p).length = 5 := by decide +kernel
  refine ⟨reached, promise, begun, started, fun limit more => ?_⟩
  refine (ends promise begun started).2 {⟨"/w/a.mjs"⟩, ⟨"/w/b.cjs"⟩, ⟨"/w/index.mjs"⟩}
    (fun p bytes reaches _ => ?_) limit (by rw [few]; exact more)
  simpa using (reached p).mp reaches

end Blueprint
end Isolate
