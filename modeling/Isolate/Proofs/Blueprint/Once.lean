import Isolate.Proofs.Blueprint.Stillness
import Isolate.Proofs.Script.Once
import Isolate.Proofs.Worker.Numbering

/-!
# What a run runs

A run that succeeds runs each module of its graph once.
-/

namespace Isolate

open Script Hosted

namespace Blueprint

section Building

variable {σ : Type} [Store.Source σ] {blueprint : Blueprint} {globals : Globals} {rules : Rules}
  {store : σ} {directory : Path} {log : List Text.Units} {content : Path → Except Store.Error Bytes}
  {module : BuiltModule}

/-- As long as every CommonJS file that a build has read is the body of a function, its worker has been
dormant until it links the root. -/
theorem dormant_of_build (holds : Store.Holds store content)
    (done : (blueprint.buildModule globals (freshHost rules store directory log)).1 = .ok module)
    (bodies : (blueprint.buildModule globals
      (freshHost rules store directory log)).2.store.HasBodies rules content) :
    ∃ w promise begun ended linked,
      blueprint.start globals (freshHost rules store directory log) = some (promise, begun) ∧
      settled promise begun = .ok ⟨⟩ ended ∧
      (∀ session, ended.session = some session →
        (blueprint.buildModule globals (freshHost rules store directory log)).2.session =
          session.clearFailures) ∧
      ended.store.HasBodies rules content ∧ Worker.Dormant w rules content module.root ended ∧
      (∃ tree before after, Grammar.readModule blueprint.source.toList = .ok tree ∧
        blueprint.addRoot (blueprint.rootOrigin directory) tree before = .ok module.root after ∧
        after.Retains ended.world) ∧
      linkModule module.root ended.world = .ok ⟨⟩ linked ∧ module.world = { linked with requests := [] } := by
  obtain ⟨session, w, tree, made, promise, begun, ended, linked, bound, new, read, added, graph, started,
    loaded, left, same, links, world⟩ := buildModule_links done
  obtain rfl := Except.ok.inj bound
  obtain ⟨root, made', added', none, still⟩ := still_of_addRoot rules directory log holds new read
    (blueprint.rootOrigin (freshHost rules store directory log).directory)
  obtain ⟨rfl, rfl⟩ := EStateM.Result.ok.inj (added'.symm.trans added)
  have here : Script.left (loadGraph module.root >>= settled) _ = ended :=
    left_of_ok ((bind_of_ok graph settled).trans loaded)
  rw [same] at bodies
  obtain ⟨dormant, retains⟩ := dormant_loading still none (here.symm ▸ bodies)
  rw [here] at dormant retains
  obtain ⟨after, adds, left'⟩ := exists_of_lift added
  have kept : after.Retains made'.world := .of_modules (by rw [left']) fun _ _ known => by rwa [left']
  exact ⟨_, promise, begun, ended, linked, started, loaded, left, bodies, dormant,
    ⟨tree, _, after, read, adds, kept.trans retains⟩, links, world⟩

/-- The root of a build was made of the source of its blueprint, and every other module with a record was
made of a file. -/
theorem isMade_of_build (holds : Store.Holds store content)
    (done : (blueprint.buildModule globals (freshHost rules store directory log)).1 = .ok module)
    (bodies : (blueprint.buildModule globals
      (freshHost rules store directory log)).2.store.HasBodies rules content) :
    (∃ tree before after, Grammar.readModule blueprint.source.toList = .ok tree ∧
        blueprint.addRoot (blueprint.rootOrigin directory) tree before = .ok module.root after ∧
        after.Retains module.world) ∧
      (blueprint.buildModule globals (freshHost rules store directory log)).2.session.IsMade module.world
        rules content module.root := by
  obtain ⟨w, _, _, ended, linked, _, _, left, _, dormant, ⟨tree, before, after, read, adds, kept⟩, links,
    world⟩ := dormant_of_build holds done bodies
  have retains : ended.world.Retains module.world := by
    have linking := retains_linkModule dormant.root dormant.assembled
    rw [left_of_ok links] at linking
    exact linking.trans (.of_modules (by rw [world]) fun _ _ known => by rwa [world])
  obtain ⟨session, here, made⟩ := dormant.session
  rw [left session here]
  have made' := made.retains retains
  exact ⟨⟨tree, before, after, read, adds, kept.trans retains⟩, made'.own, made'.known, made'.made⟩

/-- What is built of modules that do not await is prepared for its evaluation. -/
theorem isPrepared_of_build (holds : Store.Holds store content)
    (done : (blueprint.buildModule globals (freshHost rules store directory log)).1 = .ok module)
    (bodies : (blueprint.buildModule globals
      (freshHost rules store directory log)).2.store.HasBodies rules content)
    (awaits : ∀ id, LeadsTo module.world.requestedBy module.root id →
      (module.world.module id).awaits = false) : module.world.IsPrepared module.root := by
  obtain ⟨w, _, _, ended, linked, _, _, _, _, dormant, _, links, world⟩ := dormant_of_build holds done bodies
  obtain ⟨w', _, arranged⟩ := (arranged_buildModule blueprint globals rules store directory log holds
    bodies).2 module done
  obtain ⟨isLinked, _, same⟩ := isLinked_linkModule dormant.assembled dormant.root links
  have isLinked' : module.world.IsLinked module.root := isLinked.of_modules (by rw [world]) (by rw [world])
  have status (id : Nat) : (module.world.module id).status = .unlinked ∨
      (module.world.module id).status = .linked := by
    obtain ⟨space, status, same, either⟩ := same id
    have here : module.world.module id = linked.module id := by rw [world]; rfl
    rwa [here, same]
  have found (id : Nat) (leads : LeadsTo module.world.requestedBy module.root id) :=
    World.getElem?_module (isLinked'.linked id leads).1
  exact
    { isLinked' with
      ready :=
        { known := fun id leads => (isLinked'.linked id leads).1
          closed := fun id leads other requested => leads.tail requested
          linked := fun id leads => by rw [(isLinked'.linked id leads).2]; decide
          awaits
          pending := fun id leads => (arranged.untouched id _ (found id leads)).pending
          plain := fun id leads => (arranged.sound id _ (found id leads)).requests
          waits := fun id => by
            by_cases known : id < module.world.modules.size
            · exact (arranged.untouched id _ (World.getElem?_module known)).waitOrder
            · rw [World.module_of_le (Nat.le_of_not_lt known)]
              rfl }
      new := fun id begun => by
        rw [Module.HasBegun] at begun
        split at begun
        · exact (status id).elim begun.1 begun.2
        · rcases status id with same | same <;> cases same.symm.trans begun
      fresh := (arranged.untouched _ _ (found _ .refl)).result
      scope := fun id known => (arranged.scope id _ (World.getElem?_module known)).2
      apart := fun id other known known' same =>
        arranged.apart id other _ _ (World.getElem?_module known) (World.getElem?_module known') same
      sound := fun id known => arranged.sound id _ (World.getElem?_module known) }

/-- The modules of a build whose root comes from a file are those of the paths that the root reaches. -/
theorem numbers_of_build {path : Path} (file : blueprint.origin = .file path)
    (holds : Store.Holds store content)
    (done : (blueprint.buildModule globals (freshHost rules store directory log)).1 = .ok module)
    (bodies : (blueprint.buildModule globals
      (freshHost rules store directory log)).2.store.HasBodies rules content) :
    (blueprint.importGraph rules content directory path).Numbers
      (blueprint.buildModule globals (freshHost rules store directory log)).2.session module.world
      module.root := by
  obtain ⟨w, promise, begun, ended, linked, started, loaded, left, read, dormant, _, links, world⟩ :=
    dormant_of_build holds done bodies
  have first : (blueprint.buildModule globals (freshHost rules store directory log)).2.session.record?
      (directory.absolute path) = some module.root :=
    ((Host.root_spared blueprint globals (freshHost rules store directory log) file).2 module done []).1
  obtain ⟨ran, value, fulfilled⟩ := settled_ok loaded
  obtain ⟨n, stage, _⟩ := stage_of_start file holds started ∅
  have all : (Script.left (rounds stepLimit) begun).store.HasBodies rules content := by rwa [left_of_ok ran]
  rcases stage.run stepLimit all with ⟨after, ran', loaded⟩ | ⟨⟨_, exhausted⟩, _⟩
  · obtain ⟨-, rfl⟩ := EStateM.Result.ok.inj (ran.symm.trans ran')
    rcases loaded with ⟨session, here, gathered, _, joins, serves, single⟩ | ⟨reason, rejected⟩
    · obtain ⟨_, requests, _⟩ := isLinked_linkModule dormant.assembled dormant.root links
      rw [left session here] at first ⊢
      refine (joins.numbers gathered serves single first).congr rfl (Eq.trans ?_ requests)
      exact World.requestedBy_of_modules (by rw [world])
    · rw [fulfilled] at rejected
      exact nomatch Option.some.inj rejected
  · rw [ran] at exhausted
    contradiction

end Building

end Blueprint

namespace BuiltModule

variable {τ : Type} [Store.Source τ] {module : BuiltModule} {host : Host τ}

/-- A run that succeeds has evaluated the root, without a failure, and whatever was over then has stayed
so. -/
theorem evaluated_of_run (fine : (run.{0} module host).1 = .ok ⟨⟩) :
    ∃ promise w, evaluateModule module.root (host.worker module.world).world = .ok promise w ∧
      (∀ reason, w.promiseState? promise ≠ some (.rejected reason)) ∧
      ∀ past : Past, past.Keeps w (run.{0} module host).2.1.world := by
  rw [run_eq] at fine ⊢
  cases ran : module.evaluate (host.worker module.world) with
  | error abrupt stopped =>
    rw [ran] at fine
    contradiction
  | ok _ ended =>
    rw [ran] at fine
    dsimp only at fine
    cases evaluated : evaluateModule module.root (host.worker module.world).world with
    | error abrupt w =>
      obtain ⟨stopped, failed⟩ : ∃ stopped, lift (evaluateModule module.root) (host.worker module.world) =
          .error abrupt stopped := ⟨_, by rw [lift, evaluated]⟩
      rw [evaluate, bind_of_error failed] at ran
      contradiction
    | ok promise w =>
      obtain ⟨begun, lifted, same⟩ : ∃ begun, lift (evaluateModule module.root) (host.worker module.world) =
          .ok promise begun ∧ begun.world = { w with requests := [] } := ⟨_, by rw [lift, evaluated], rfl⟩
      rw [evaluate, bind_of_ok lifted] at ran
      obtain ⟨_, value, fulfilled⟩ := Blueprint.settled_ok ran
      have settles (past : Past) : past.Keeps w ended.world := by
        have related : Worker.Related past.Keeps begun ended := left_of_ok ran ▸ obeys_settled promise begun
        rw [Worker.Related, same] at related
        exact IsTrans.trans (r := past.Keeps) _ _ _ (World.IsWorkerLaw.requests w []) related
      refine ⟨promise, w, rfl, fun reason rejected => ?_, fun past => ?_⟩
      · have known := lt_of_promiseState? rejected
        have still := (settles _ (Past.holds_promise known)).rejected reason rejected
        rw [fulfilled] at still
        cases Option.some.inj still
      · dsimp only
        cases collected : collectExports module.root ended.world with
        | error abrupt w' =>
          rw [collected] at fine
          contradiction
        | ok exports w' =>
          have reads : past.Keeps ended.world w' := (obeys_collectExports module.root).of_ok collected
          exact IsTrans.trans (r := past.Keeps) _ _ _ (settles past) reads

end BuiltModule

namespace Blueprint

variable {σ : Type} [Store.Source σ]

/-- A build of modules that do not await, all of whose CommonJS files are bodies of functions. It
has run no module. The root was made of the source, and every other module of a file of its kind; if
the root comes from a file, each path that it reaches through imports has one module, and there is
no other module. A run that succeeds, in whatever host, runs each of them once, behind all that it
imports and that does not lead back to it; and what the function of a CommonJS file leaves as its
exports when it ends is the one value that is read, then and later, through every import that comes
to the default export of the file. -/
theorem runs_each_module_once (blueprint : Blueprint) (globals : Globals) (rules : Rules) (store : σ)
    (directory : Path) (log : List Text.Units) {content : Path → Except Store.Error Bytes}
    (holds : Store.Holds store content) :
    let built := blueprint.buildModule globals (freshHost rules store directory log)
    ∀ module, built.1 = .ok module → built.2.store.HasBodies rules content →
      (∀ id, LeadsTo module.world.requestedBy module.root id →
        (module.world.module id).awaits = false) →
      module.world.executed = [] ∧
      (∃ tree before after, Grammar.readModule blueprint.source.toList = .ok tree ∧
        blueprint.addRoot (blueprint.rootOrigin directory) tree before = .ok module.root after ∧
        after.Retains module.world) ∧
      built.2.session.IsMade module.world rules content module.root ∧
      (∀ path, blueprint.origin = .file path →
        (blueprint.importGraph rules content directory path).Numbers built.2.session module.world
          module.root) ∧
      ∀ (τ : Type) [Store.Source τ] (host : Host τ), (BuiltModule.run.{0} module host).1 = .ok ⟨⟩ →
        ∃ order, module.world.RunsOnce module.root order (BuiltModule.run.{0} module host).2.1.world := by
  intro built module done bodies awaits
  obtain ⟨stems, made⟩ := isMade_of_build holds done bodies
  obtain ⟨w, new, arranged⟩ := (arranged_buildModule blueprint globals rules store directory log holds
    bodies).2 module done
  have prepared := isPrepared_of_build holds done bodies awaits
  refine ⟨arranged.executed.trans (empty_newWorld new).2, stems, made,
    fun path file => numbers_of_build file holds done bodies, fun τ _ host fine => ?_⟩
  obtain ⟨promise, w', evaluated, unrejected, since⟩ := BuiltModule.evaluated_of_run fine
  have same : (host.worker module.world).world.modules = module.world.modules := rfl
  obtain ⟨order, once⟩ := (prepared.of_modules same rfl).runsOnce evaluated unrejected since
  exact ⟨order, once.of_modules same rfl rfl⟩

omit [Store.Source σ] in
theorem awaits_of_all {w : World} (none : w.modules.all fun m => !m.awaits) (id : Nat) :
    (w.module id).awaits = false := by
  by_cases known : id < w.modules.size
  · rw [World.module, Array.getD_eq_getD_getElem?, Array.getElem?_eq_getElem known, Option.getD_some]
    simpa using Array.all_eq_true.mp none id known
  · rw [World.module_of_le (Nat.le_of_not_lt known)]
    rfl

/-- A build and a run succeed, no module awaits, and something holds after the run. -/
def runsTo (blueprint : Blueprint) (files : Store.Recording)
    (holds : BuiltModule → BuiltModule → Bool) : Bool :=
  match blueprint.buildModule recorder (freshHost cycleRules files ⟨"/"⟩ []) with
  | (.ok module, host) =>
    (module.world.modules.all fun m => !m.awaits) && (BuiltModule.run.{0} module host).1.isOk &&
      holds module (BuiltModule.run.{0} module host).2.1
  | (.error _, _) => false

theorem exists_of_runsTo {blueprint : Blueprint} {files : Store.Recording}
    {holds : BuiltModule → BuiltModule → Bool} (runs : runsTo blueprint files holds) :
    ∃ module host, blueprint.buildModule recorder (freshHost cycleRules files ⟨"/"⟩ []) = (.ok module, host) ∧
      (∀ id, (module.world.module id).awaits = false) ∧ (BuiltModule.run.{0} module host).1 = .ok ⟨⟩ ∧
      holds module (BuiltModule.run.{0} module host).2.1 := by
  rw [runsTo] at runs
  split at runs
  next module host built =>
    obtain ⟨⟨still, ran⟩, held⟩ := by simpa only [Bool.and_eq_true] using runs
    obtain ⟨⟨⟩, ran⟩ := exists_of_isOk ran
    exact ⟨module, host, built, awaits_of_all still, ran, held⟩
  next => contradiction

/-- In a cycle of two modules, both of which import a CommonJS file, each is run once. -/
theorem runs_cycle_once :
    ∃ module host order,
      cycle.buildModule recorder (freshHost cycleRules cycleFiles ⟨"/"⟩ []) = (.ok module, host) ∧
      (BuiltModule.run.{0} module host).1 = .ok ⟨⟩ ∧ module.world.executed = [] ∧
      (cycle.importGraph cycleRules cycleFiles.inner.read ⟨"/"⟩ ⟨"/w/./index.mjs"⟩).Numbers host.session
        module.world module.root ∧
      module.world.RunsOnce module.root order (BuiltModule.run.{0} module host).2.1.world := by
  have bodies : Wrapper.AreBodies cycleRules cycleFiles.inner.read :=
    areBodies_of_files cycleRules (by decide +kernel)
  have runs : runsTo cycle cycleFiles fun _ _ => true := by decide +kernel
  obtain ⟨module, host, built, awaits, ran, _⟩ := exists_of_runsTo runs
  have all := runs_each_module_once cycle recorder cycleRules cycleFiles ⟨"/"⟩ []
    (Store.holds_recording cycleFiles)
  rw [built] at all
  obtain ⟨empty, _, _, numbers, once⟩ := all module rfl (fun path _ => bodies path) fun id _ => awaits id
  obtain ⟨order, once⟩ := once _ host ran
  exact ⟨module, host, order, built, ran, empty, numbers _ rfl, once⟩

/-- A module that imports the root, and one that imports nothing. -/
def circleFiles : Store.Recording :=
  { inner := .ofList
      [(⟨"/w/a.mjs"⟩, Text.Utf8.encode "import './index.mjs'; rec('a');".toList),
        (⟨"/w/b.mjs"⟩, Text.Utf8.encode "rec('b');".toList)] }

def circle : Blueprint :=
  { source := "import './a.mjs'; import './b.mjs'; rec('index');", origin := .file ⟨"/w/index.mjs"⟩ }

/-- A file that ends the function around it and imports a module, and that module. -/
def earlyFiles : Store.Recording :=
  { inner := .ofList
      [(⟨"/w/c.cjs"⟩, Text.Utf8.encode "\x7d); import('./b.mjs'); (function () \x7b".toList),
        (⟨"/w/b.mjs"⟩, Text.Utf8.encode "rec('b');".toList)] }

def early : Blueprint :=
  { source := "import './c.cjs'; import './b.mjs'; rec('index');", origin := .file ⟨"/w/index.mjs"⟩ }

/-- A module does not come behind all that it leads to and that does not lead back to it. The first
module that the root imports leads to the second one, but through the root, which waits for both in
turn. And if a CommonJS file is no body of a function, a module may have been run by the build, and
is not run again. -/
theorem not_all_in_turn :
    (¬∀ (blueprint : Blueprint) (files : Store.Recording) (module : BuiltModule)
        (host : Host (Store.Watched Store.Recording)),
      blueprint.buildModule recorder (freshHost cycleRules files ⟨"/"⟩ []) = (.ok module, host) →
        host.store.HasBodies cycleRules files.inner.read →
        (∀ id, (module.world.module id).awaits = false) → (BuiltModule.run.{0} module host).1 = .ok ⟨⟩ →
          ∀ id other, LeadsTo module.world.requestedBy module.root id →
            LeadsTo module.world.requestedBy id other → ¬LeadsTo module.world.requestedBy other id →
              [other, id].Sublist (BuiltModule.run.{0} module host).2.1.world.executed.reverse) ∧
      ∃ module host,
        early.buildModule recorder (freshHost cycleRules earlyFiles ⟨"/"⟩ []) = (.ok module, host) ∧
          (∀ id, (module.world.module id).awaits = false) ∧ (BuiltModule.run.{0} module host).1 = .ok ⟨⟩ ∧
          ∃ id ∈ module.world.requestedBy module.root, module.world.executed = [id] ∧
            (BuiltModule.run.{0} module host).2.1.world.executed.count id = 1 := by
  refine ⟨fun always => ?_, ?_⟩
  · have bodies : Wrapper.AreBodies cycleRules circleFiles.inner.read :=
      areBodies_of_files cycleRules (by decide +kernel)
    have runs : runsTo circle circleFiles fun module later =>
        module.root = 0 && [0, 1, 2].map module.world.requestedBy = [[1, 2], [0], []] &&
          later.world.executed = [0, 2, 1] := by decide +kernel
    obtain ⟨module, host, built, awaits, ran, held⟩ := exists_of_runsTo runs
    simp only [Bool.and_eq_true, decide_eq_true_eq, List.map_cons, List.map_nil, List.cons.injEq,
      and_true] at held
    obtain ⟨⟨root, first, second, third⟩, executed⟩ := held
    have begins : 1 ∈ module.world.requestedBy module.root := by
      rw [root, first]
      decide
    have back : 0 ∈ module.world.requestedBy 1 := by
      rw [second]
      decide
    have on : 2 ∈ module.world.requestedBy 0 := by
      rw [first]
      decide
    have apart : ¬LeadsTo module.world.requestedBy 2 1 := by
      intro leads
      rcases Relation.ReflTransGen.cases_head leads with same | ⟨_, step, _⟩
      · exact absurd same (by decide)
      · rw [third] at step
        exact List.not_mem_nil step
    have behind := always circle circleFiles module host built (fun path _ => bodies path) awaits ran 1 2
      (.single begins) (.tail (.single back) on) apart
    rw [executed] at behind
    exact absurd behind (by decide)
  · have runs : runsTo early earlyFiles fun module later =>
        2 ∈ module.world.requestedBy module.root && module.world.executed = [2] &&
          later.world.executed = [0, 1, 2] := by decide +kernel
    obtain ⟨module, host, built, awaits, ran, held⟩ := exists_of_runsTo runs
    simp only [Bool.and_eq_true, decide_eq_true_eq] at held
    obtain ⟨⟨requested, before⟩, later⟩ := held
    refine ⟨module, host, built, awaits, ran, 2, requested, before, ?_⟩
    rw [later]
    decide

end Blueprint
end Isolate
