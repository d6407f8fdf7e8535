import Isolate.Blueprint.Module
import Isolate.Proofs.Worker.Evolution

/-!
# The life of a session

A session is bound by the first build that uses it, which registers the root before anything is
resolved, and lives on in the runs of the module that was built.
-/

namespace Isolate

open Script

variable {σ : Type} [Store.Source σ]

open Hosted

/-- Failures that are taken are forgotten. -/
theorem Session.eq_of_takeFailure {session next : Session Nat} {text : List Char} {fallback : Bool}
    {failure : Error} (taken : session.takeFailure text fallback = (some failure, next)) :
    next = session.clearFailures := by
  unfold takeFailure at taken
  dsimp only at taken
  generalize Option.or _ _ = found at taken
  cases found with
  | none => cases (Prod.mk.inj taken).1
  | some error => exact (Prod.mk.inj taken).2.symm

namespace Blueprint

def caught (action : Hosted σ PUnit) : Hosted σ (Option Abrupt) := fun worker =>
  match action worker with
  | .ok _ worker => .ok none worker
  | .error abrupt worker => .ok (some abrupt) worker

section Laws

variable {S : Worker σ → Worker σ → Prop}

omit [Store.Source σ] in
theorem obeys_caught {action : Hosted σ PUnit} (h : Obeys S action) : Obeys S (caught action) := by
  intro worker
  have done := h worker
  cases ran : action worker with
  | ok value after =>
    rw [left_of_ok ran] at done
    have same : caught action worker = .ok none after := by rw [caught, ran]
    rw [left_of_ok same]
    exact done
  | error abrupt after =>
    rw [left_of_error ran] at done
    have same : caught action worker = .ok (some abrupt) after := by rw [caught, ran]
    rw [left_of_ok same]
    exact done

/-- Loading and linking the graph of a root obeys every law of workers. -/
theorem obeys_loadRoot [law : Worker.IsLaw S] (root refused : Nat) (label : String) :
    Obeys S (loadRoot root refused label : Hosted σ (Except Error PUnit)) := by
  change Obeys S (caught (loadGraph root >>= settled) >>= _)
  refine .bind (obeys_caught (.bind (obeys_loadGraph root) obeys_settled)) fun caught => ?_
  cases caught with
  | some abrupt =>
    refine .get_bind fun worker => ?_
    dsimp only
    split
    next failure session taken =>
      obtain ⟨before, here, taken⟩ := Option.map_eq_some_iff.mp taken
      have cleared := law.clearFailures worker
      rw [here, Option.map_some, ← Session.eq_of_takeFailure taken] at cleared
      exact cleared
    next => exact law.refl worker
  | none =>
    refine .bind law.clearFailures fun _ => .bind (law.lift fun _ law => ?_) fun linked => ?_
    · exact obeys_capture (law.linkModule root)
    cases linked with
    | ok _ => exact .pure _
    | error abrupt => exact .bind .get fun _ => .pure _

end Laws

/-- Where the root of a build comes from; the key of its file is absolute. -/
def rootOrigin (blueprint : Blueprint) (directory : Path) : Origin :=
  match blueprint.origin with
  | .anonymous => .anonymous
  | .file path => .file (directory.absolute path)

/-- The module of the root. -/
def addRoot (blueprint : Blueprint) (origin : Origin) (tree : ModuleTree) : Action Nat := do
  let unit ← addUnit
    { origin := origin.codeOrigin, functions := (tree.code blueprint.source.toList).functions
      referrer := origin }
  addModule (.code unit) (some tree)

/-- A build from where the root was read: the root is registered before anything is loaded. -/
def begin (root : Action Nat) (origin : Origin) (refused : Nat) (label : String) :
    Hosted σ (Nat × Except Error PUnit) := do
  let root ← lift root
  match origin with
  | .file path => modifySession (·.register path root)
  | .anonymous => pure ()
  pure (root, ← loadRoot root refused label)

/-- What a build comes to. -/
def conclude (label : String) (refused : Nat) (host : Host σ) :
    EStateM.Result Abrupt (Worker σ) (Nat × Except Error PUnit) → Except Error BuiltModule × Host σ
  | .ok (root, .ok _) worker => (.ok { world := worker.world, root, label }, host.leave worker)
  | .ok (_, .error e) worker => (.error e, host.leave worker)
  | .error abrupt worker =>
    (.error (.ofFailure worker.world abrupt label refused), host.leave worker)

/-- A build ends before anything is loaded, or loads the graph of its root. -/
theorem buildModule_cases (blueprint : Blueprint) (globals : Globals) (host : Host σ) :
    (∃ error, blueprint.buildModule globals host = (.error error, host)) ∨
      ∃ session, host.session.bind = .ok session ∧
        ((∃ error, blueprint.buildModule globals host = (.error error, { host with session })) ∨
          ∃ w tree, blueprint.newWorld globals = .ok w ∧
            Grammar.readModule blueprint.source.toList = .ok tree ∧
            blueprint.buildModule globals host =
              conclude blueprint.label w.refusals.length { host with session }
                (begin (blueprint.addRoot (blueprint.rootOrigin host.directory) tree)
                  (blueprint.rootOrigin host.directory) w.refusals.length blueprint.label
                  (({ host with session } : Host σ).worker w))) := by
  unfold buildModule
  split
  next => exact .inl ⟨_, rfl⟩
  next session bound =>
    refine .inr ⟨session, bound, ?_⟩
    dsimp only
    split
    next => exact .inl ⟨_, rfl⟩
    next made =>
      split
      next => exact .inl ⟨_, rfl⟩
      next tree read => exact .inr ⟨_, tree, made, read, rfl⟩

omit [Store.Source σ] in
theorem conclude_host (label : String) (refused : Nat) (host : Host σ)
    (action : Hosted σ (Nat × Except Error PUnit)) (worker : Worker σ) :
    (conclude label refused host (action worker)).2 = host.leave (action.final worker) := by
  unfold final
  cases action worker with
  | error abrupt after => rfl
  | ok built after => obtain ⟨root, _ | _⟩ := built <;> rfl

omit [Store.Source σ] in
theorem value?_of_conclude {label : String} {refused : Nat} {host : Host σ}
    {action : Hosted σ (Nat × Except Error PUnit)} {worker : Worker σ} {module : BuiltModule}
    (h : (conclude label refused host (action worker)).1 = .ok module) :
    action.value? worker = some (module.root, .ok ⟨⟩) := by
  unfold value?
  cases done : action worker with
  | error abrupt after =>
    rw [done] at h
    contradiction
  | ok built after =>
    rw [done] at h
    obtain ⟨root, error | _⟩ := built
    · contradiction
    · cases h
      rfl

/-- Once its root is made, a build enters it and loads what it requests. -/
theorem begin_of_made {worker after : Worker σ} {session : Session Nat}
    {make : Action Nat} {root : Nat} (made : lift make worker = .ok root after)
    (here : after.session = some session) (origin : Origin) (refused : Nat) (label : String) :
    begin make origin refused label worker =
      (loadRoot root refused label >>= fun result => pure (root, result))
        { after with session := some (session.enter origin root) } := by
  refine (bind_of_ok made _).trans ?_
  cases origin with
  | anonymous =>
    have kept : after = { after with session := some session } := by rw [← here]
    exact congrArg (loadRoot root refused label >>= fun result => pure (root, result)) kept
  | file path =>
    change (loadRoot root refused label >>= fun result => pure (root, result)) { after with
      session := after.session.map fun (s : Session Nat) => s.register path root } = _
    rw [here]
    rfl

/-- Either the root cannot be made, or it is entered and all that follows obeys every law of workers. -/
theorem begin_leaves {S : Worker σ → Worker σ → Prop} [law : Worker.IsLaw S] {worker : Worker σ}
    {session : Session Nat} (here : worker.session = some session) (make : Action Nat)
    (origin : Origin) (refused : Nat) (label : String) :
    ((begin make origin refused label).value? worker = none ∧
        ((begin make origin refused label).final worker).session = some session ∧
        ((begin make origin refused label).final worker).store = worker.store) ∨
      ∃ (root : Nat) (start : Worker σ),
        start.session = some (session.enter origin root) ∧ start.store = worker.store ∧
        S start ((begin make origin refused label).final worker) ∧
        ∀ id result, (begin make origin refused label).value? worker = some (id, result) →
          id = root := by
  have session' := session_final_lift make worker
  have store := store_final_lift make worker
  cases made : lift make worker with
  | error abrupt after =>
    rw [final_of_error made] at session' store
    have stopped : begin make origin refused label worker = .error abrupt after :=
      bind_of_error made _
    rw [final_of_error stopped, value?_of_error stopped]
    exact .inl ⟨rfl, session'.trans here, store⟩
  | ok root after =>
    rw [final_of_ok made] at session' store
    rw [here] at session'
    have same := begin_of_made made session' origin refused label
    rw [final_congr same, value?_congr same, final_bind_pure, value?_bind_pure]
    refine .inr ⟨root, { after with session := some (session.enter origin root) }, rfl, store,
      ?_, fun id result value => ?_⟩
    · rw [← left_eq_final]
      exact obeys_loadRoot root refused label _
    obtain ⟨_, _, same⟩ := Option.map_eq_some_iff.mp value
    exact (Prod.mk.inj same).1.symm

/-- A build ends before anything is loaded, or all that it does once its root is entered obeys every law
of workers. -/
theorem buildModule_leaves {S : Worker σ → Worker σ → Prop} [law : Worker.IsLaw S]
    (blueprint : Blueprint) (globals : Globals) (host : Host σ) :
    ((∀ module, (blueprint.buildModule globals host).1 ≠ .ok module) ∧
        (blueprint.buildModule globals host).2.store = host.store ∧
        ((blueprint.buildModule globals host).2.session = host.session ∨
          host.session.bind = .ok (blueprint.buildModule globals host).2.session)) ∨
      ∃ (session : Session Nat) (root : Nat) (start worker : Worker σ),
        host.session.bind = .ok session ∧
        start.session = some (session.enter (blueprint.rootOrigin host.directory) root) ∧
        start.store = host.store ∧ S start worker ∧
        (blueprint.buildModule globals host).2 = Host.leave { host with session } worker ∧
        ∀ module, (blueprint.buildModule globals host).1 = .ok module → module.root = root := by
  rcases blueprint.buildModule_cases globals host with ⟨error, built⟩ | ⟨session, bound, cases⟩
  · rw [built]
    exact .inl ⟨fun _ clash => by contradiction, rfl, .inl rfl⟩
  rcases cases with ⟨error, built⟩ | ⟨w, tree, _, _, built⟩
  · rw [built]
    exact .inl ⟨fun _ clash => by contradiction, rfl, .inr bound⟩
  have here : (Host.worker { host with session } w).session = some session := rfl
  have store : (Host.worker { host with session } w).store = host.store := rfl
  have begun := begin_leaves (S := S) here
    (blueprint.addRoot (blueprint.rootOrigin host.directory) tree)
    (blueprint.rootOrigin host.directory) w.refusals.length blueprint.label
  generalize (begin (blueprint.addRoot (blueprint.rootOrigin host.directory) tree)
    (blueprint.rootOrigin host.directory) w.refusals.length blueprint.label :
      Hosted σ _) = action at built begun
  generalize Host.worker { host with session } w = worker at built begun here store
  rw [built, conclude_host]
  rcases begun with ⟨unmade, left, kept⟩ | ⟨root, start, entered, kept, obeyed, same⟩
  · refine .inl ⟨fun module done => ?_, kept.trans store, .inr ?_⟩
    · rw [value?_of_conclude done] at unmade
      contradiction
    · rw [bound, Host.leave, left, Option.getD_some]
  · exact .inr ⟨session, root, start, _, bound, entered, kept.trans store, obeyed, rfl,
      fun module done => same _ _ (value?_of_conclude done)⟩

end Blueprint

namespace BuiltModule

/-- Naming the failure of a run obeys every law of workers. -/
theorem obeys_failureOf {S : Worker σ → Worker σ → Prop} [law : Worker.IsLaw S] (worker : Worker σ)
    (abrupt : Abrupt) (label : String) (refused : Nat) :
    S worker (failureOf worker abrupt label refused).2 := by
  unfold failureOf
  dsimp only
  split
  next => exact law.refl worker
  next session here =>
    split
    next failure next taken =>
      have cleared := law.clearFailures worker
      rw [here, Option.map_some, ← Session.eq_of_takeFailure taken] at cleared
      exact cleared
    next => exact law.refl worker

/-- The evaluation of a module, and all that it leaves to do. -/
def evaluate (module : BuiltModule) : Hosted σ PUnit := do
  Hosted.settled (← Hosted.lift (evaluateModule module.root))

/-- Evaluating a module obeys every law of workers. -/
theorem obeys_evaluate {S : Worker σ → Worker σ → Prop} [law : Worker.IsLaw S]
    (module : BuiltModule) : Obeys S (module.evaluate : Hosted σ PUnit) :=
  .bind (law.lift fun _ law => law.evaluateModule module.root) fun promise => obeys_settled promise

/-- A run evaluates the module and then reads its exports. -/
theorem run_eq (module : BuiltModule) (host : Host σ) :
    module.run host =
      match module.evaluate (host.worker module.world) with
      | .error abrupt worker =>
        let (failure, worker) := failureOf worker abrupt module.label module.world.refusals.length
        (.error failure, { module with world := worker.world }, host.leave worker)
      | .ok _ worker =>
        let worker : Worker σ :=
          { worker with session := worker.session.map fun session => session.clearFailures }
        match collectExports module.root worker.world with
        | .ok exports w =>
          (.ok ⟨⟩, { module with world := w, exports := some exports },
            host.leave { worker with world := w })
        | .error abrupt w =>
          (.error (.ofEngine w abrupt), { module with world := w },
            host.leave { worker with world := w }) := rfl

/-- A run whose evaluation ends well ends with reading the exports. -/
theorem run_of_evaluated {module : BuiltModule} {host : Host σ} {ended : Worker σ}
    (evaluated : module.evaluate (host.worker module.world) = .ok ⟨⟩ ended) :
    module.run host =
      let worker : Worker σ :=
        { ended with session := ended.session.map fun session => session.clearFailures }
      match collectExports module.root ended.world with
      | .ok exports w =>
        (.ok ⟨⟩, { module with world := w, exports := some exports },
          host.leave { worker with world := w })
      | .error abrupt w =>
        (.error (.ofEngine w abrupt), { module with world := w },
          host.leave { worker with world := w }) := by
  rw [run_eq, evaluated]

/-- Reading the exports of a module obeys every law. -/
theorem obeys_collectExports {R : World → World → Prop} [law : World.IsJobLaw R] (root : Nat) :
    Obeys R (collectExports root) := by
  refine .bind (law.spaceOf _) fun space => .bind .get fun w => .foldlM _ _ fun found name => ?_
  exact .bind (obeys_getMember _ _) fun _ => .pure _

/-- Every law of workers holds between the worker that a run begins with and the one that it leaves. -/
theorem run_leaves {S : Worker σ → Worker σ → Prop} [law : Worker.IsLaw S]
    (module : BuiltModule) (host : Host σ) :
    ∃ worker, S (host.worker module.world) worker ∧ (module.run host).2.2 = host.leave worker := by
  have evaluated := module.obeys_evaluate (S := S) (host.worker module.world)
  rw [run_eq]
  dsimp only
  split
  next abrupt after failed =>
    rw [left_of_error failed] at evaluated
    exact ⟨_, law.trans _ _ _ evaluated (obeys_failureOf after abrupt module.label _), rfl⟩
  next value after done =>
    rw [left_of_ok done] at evaluated
    have cleared := law.trans _ _ _ evaluated (law.clearFailures after)
    have collects : Lawful (collectExports module.root) := fun _ _ => obeys_collectExports _
    have read := law.trans _ _ _ cleared (obeys_world collects _)
    split
    next exports w collected =>
      rw [left_of_ok collected] at read
      exact ⟨_, read, rfl⟩
    next abrupt w failed =>
      rw [left_of_error failed] at read
      exact ⟨_, read, rfl⟩

end BuiltModule

/-- What may be done with a host. -/
inductive Host.Deed (σ : Type) where
  | build (blueprint : Blueprint) (globals : Globals)
  | run (module : BuiltModule)
  /-- Anything happens to the files and to the log. The session is not touched, and nothing is
  read. -/
  | change (change : Host (Store.Watched σ) → Host (Store.Watched σ))

namespace Host

def act (host : Host (Store.Watched σ)) : Deed σ → Host (Store.Watched σ)
  | .build blueprint globals => (blueprint.buildModule globals host).2
  | .run module => (BuiltModule.run.{0} module host).2.2
  | .change change =>
    { change host with
      session := host.session
      store := { (change host).store with reads := host.store.reads } }

/-- The host after a sequence of deeds. -/
def after (host : Host (Store.Watched σ)) (deeds : List (Deed σ)) : Host (Store.Watched σ) :=
  deeds.foldl act host

variable {host : Host (Store.Watched σ)}

/-- What happened to a worker has happened to every worker of the host that it leaves. -/
theorem leave_evolves {start worker : Worker (Store.Watched σ)} {session : Session Nat}
    (evolves : start.Evolves worker) (here : start.session = some session)
    (bound : session.isBound) (host : Host (Store.Watched σ)) (world : World) :
    start.Evolves ((host.leave worker).worker world) ∧ (host.leave worker).session.isBound := by
  obtain ⟨next, left, still⟩ := evolves.keeps_bound here bound
  have same : (host.leave worker).session = next := by rw [leave, left, Option.getD_some]
  refine ⟨evolves.trans (.of_eq ?_ rfl), same ▸ still⟩
  rw [Host.worker, same, left]

/-- All that a deed does to a bound session is a sequence of deeds to workers. -/
theorem act_evolves (bound : host.session.isBound) (deed : Deed σ) (world later : World) :
    (host.worker world).Evolves ((host.act deed).worker later) ∧
      (host.act deed).session.isBound := by
  cases deed with
  | build blueprint globals =>
    have refused : blueprint.buildModule globals host = (.error .linkerReused, host) := by
      rw [Blueprint.buildModule, Session.bind_of_isBound bound]
    rw [act, refused]
    exact ⟨.of_eq rfl rfl, bound⟩
  | run module =>
    obtain ⟨worker, evolves, left⟩ := module.run_leaves (S := Worker.Evolves) host
    have begun : (host.worker world).Evolves (host.worker module.world) := .of_eq rfl rfl
    rw [act, left]
    exact leave_evolves (begun.trans evolves) rfl bound host later
  | change change =>
    exact ⟨.of_deed (host.worker world) (.change fun _ => (change host).worker later), bound⟩

theorem after_evolves (bound : host.session.isBound) (deeds : List (Deed σ)) (world later : World) :
    (host.worker world).Evolves ((host.after deeds).worker later) := by
  induction deeds generalizing host world with
  | nil => exact .of_eq rfl rfl
  | cons deed deeds ih =>
    obtain ⟨evolves, bound⟩ := act_evolves bound deed world world
    exact evolves.trans (ih bound world)

/-- From the entry of the root on, the life of a session is one sequence of deeds to workers. -/
theorem life (blueprint : Blueprint) (globals : Globals) (host : Host (Store.Watched σ))
    {module : BuiltModule} (built : (blueprint.buildModule globals host).1 = .ok module)
    (deeds : List (Deed σ)) (world : World) :
    ∃ (session : Session Nat) (start : Worker (Store.Watched σ)),
      host.session.bind = .ok session ∧
      start.session =
        some (session.enter (blueprint.rootOrigin host.directory) module.root) ∧
      start.store = host.store ∧
      start.Evolves (((blueprint.buildModule globals host).2.after deeds).worker world) := by
  rcases blueprint.buildModule_leaves (S := Worker.Evolves) globals host with ⟨failed, _⟩ |
    ⟨session, root, start, worker, bound, entered, store, evolves, left, same⟩
  · exact absurd built (failed module)
  · have begun : (session.enter (blueprint.rootOrigin host.directory) root).isBound := by
      rw [Session.enter_isBound]
      exact Session.isBound_of_bind bound
    obtain ⟨evolves, still⟩ := leave_evolves evolves entered begun { host with session } world
    rw [left]
    exact ⟨session, start, bound, same module built ▸ entered, store,
      evolves.trans (after_evolves still deeds world world)⟩

theorem record?_enter {session : Session Nat} {blueprint : Blueprint} {path : Path}
    (file : blueprint.origin = .file path) (directory : Path) (root : Nat) :
    (session.enter (blueprint.rootOrigin directory) root).record? (directory.absolute path) =
      some root := by
  rw [Blueprint.rootOrigin, file]
  exact Session.record?_register.trans (if_pos Path.same_self)

/-- The key of a root that comes from a file is not read when it is built. If the build succeeds the
key finds the root ever after, and is never read. -/
theorem root_spared (blueprint : Blueprint) (globals : Globals) (host : Host (Store.Watched σ))
    {path : Path} (file : blueprint.origin = .file path) :
    host.store.Spares (blueprint.buildModule globals host).2.store
        (host.directory.absolute path) ∧
      ∀ module, (blueprint.buildModule globals host).1 = .ok module → ∀ deeds : List (Deed σ),
        ((blueprint.buildModule globals host).2.after deeds).session.record?
            (host.directory.absolute path) = some module.root ∧
          host.store.Spares ((blueprint.buildModule globals host).2.after deeds).store
            (host.directory.absolute path) := by
  constructor
  · rcases blueprint.buildModule_leaves (S := Worker.Evolves) globals host with ⟨_, same, _⟩ |
      ⟨session, root, start, worker, _, entered, same, evolves, left, _⟩
    · exact .of_eq (by rw [same])
    · have known : start.record? (host.directory.absolute path) = some root := by
        rw [Worker.record?, entered, Option.bind_some, record?_enter file]
      rw [left, ← same]
      exact (evolves.keeps_record known).2
  · intro module built deeds
    obtain ⟨session, start, _, entered, same, evolves⟩ :=
      life blueprint globals host built deeds module.world
    have known : start.record? (host.directory.absolute path) = some module.root := by
      rw [Worker.record?, entered, Option.bind_some, record?_enter file]
    rw [← same]
    exact evolves.keeps_record known

/-- A session has one record for every path. In a sequence of deeds to a worker a record that was
found once is never replaced or removed, and its path is not read any more. An import that came to a
record makes every later import of the same path come to the same record, and leave all but the paths
that imports named as it was. No path is loaded twice. The life of a session is such a sequence, from
the entry of the root on; so the key of a root that comes from a file is never read. -/
theorem one_record_per_path :
    (∀ (start : Worker (Store.Watched σ)) (deeds : List (Worker.Deed σ)),
        (∀ path record n k, n ≤ k → (start.state deeds n).record? path = some record →
            (start.state deeds k).record? path = some record ∧
              (start.state deeds n).store.Spares (start.state deeds k).store path) ∧
          (∀ path record n k referrer specifier target, start.Resolves deeds n path record →
            n < k → deeds[k]? = some (.resolve referrer specifier) →
              referrer.target specifier.toString = some target → target.same path →
                importModule referrer specifier (start.state deeds k) = .ok (.ok record)
                  { start.state deeds k with
                    session := (start.state deeds k).session.map (·.refer target) }) ∧
          (∀ path n k, start.Loads deeds n path → start.Loads deeds k path → n = k)) ∧
      (∀ (blueprint : Blueprint) (globals : Globals) (host : Host (Store.Watched σ)),
        ∀ module, (blueprint.buildModule globals host).1 = .ok module →
          ∀ (deeds : List (Deed σ)) (world : World),
            ∃ (session : Session Nat) (start : Worker (Store.Watched σ)),
              host.session.bind = .ok session ∧
              start.session =
                some (session.enter (blueprint.rootOrigin host.directory) module.root) ∧
              start.store = host.store ∧
              start.Evolves
                (((blueprint.buildModule globals host).2.after deeds).worker world)) ∧
      (∀ (blueprint : Blueprint) (globals : Globals) (host : Host (Store.Watched σ)) (path : Path),
        blueprint.origin = .file path →
          host.store.Spares (blueprint.buildModule globals host).2.store
              (host.directory.absolute path) ∧
            ∀ module, (blueprint.buildModule globals host).1 = .ok module →
              ∀ deeds : List (Deed σ),
                ((blueprint.buildModule globals host).2.after deeds).session.record?
                    (host.directory.absolute path) = some module.root ∧
                  host.store.Spares ((blueprint.buildModule globals host).2.after deeds).store
                    (host.directory.absolute path)) := by
  refine ⟨fun start deeds => ⟨fun path record n k later known => ?_,
    fun path record n k referrer specifier target resolves later _ names same => ?_,
    fun path n k first second => ?_⟩, fun blueprint globals host module built deeds world => ?_,
    fun blueprint globals host path file => ?_⟩
  · exact Worker.keeps_record_later later known
  · obtain ⟨known, _⟩ := Worker.keeps_record_later later resolves.known
    obtain ⟨session, here, known⟩ := Worker.record?_eq_some_iff.mp known
    rw [← Session.record?_same same] at known
    rw [importModule_of_known here names known, here]
    rfl
  · rcases Nat.lt_trichotomy n k with later | same | later
    · exact absurd second (first.not_again later)
    · exact same
    · exact absurd first (second.not_again later)
  · exact life blueprint globals host built deeds world
  · exact root_spared blueprint globals host file

end Host
end Isolate
