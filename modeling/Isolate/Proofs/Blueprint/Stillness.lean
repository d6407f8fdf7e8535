import Isolate.Proofs.Blueprint.Law
import Isolate.Proofs.Blueprint.Reachable
import Isolate.Proofs.Script.Linking
import Isolate.Proofs.Worker.Dormant

/-!
# What a build runs

A build loads and links modules and runs none of their code: as long as the CommonJS files among those
that it reads are bodies of functions, it adds to the new world that it begins with and leaves all that is
there, and nothing is recorded. The code of a module runs only when the module is evaluated.
-/

namespace Isolate

open Script Hosted

namespace Script

/-- No module's code has begun to run. -/
def World.ExecutesNothing (w w' : World) : Prop := w'.executed = w.executed

instance : World.IsLaw World.ExecutesNothing where
  refl _ := rfl
  trans _ _ _ first later := later.trans first
  objects _ _ _ := rfl
  scopes _ _ := rfl
  modules _ _ _ _ := rfl
  place _ _ _ _ := rfl
  jobs _ _ := rfl
  request _ _ _ _ := rfl
  record _ _ := rfl
  compile _ _ _ := rfl
  refuse _ _ _ := rfl

/-- A job that evaluates the module of a dynamic import, or goes on with an evaluation. -/
def Job.evaluates : Job → Bool
  | .react (.loaded _ _) _ => true
  | .react (.evaluated _) _ => true
  | _ => false

/-- All other jobs run code that begins no module. -/
theorem executesNothing_runJob {job : Job} (other : job.evaluates = false) :
    Obeys World.ExecutesNothing (runJob job) := by
  have spaces (id : Nat) : Obeys World.ExecutesNothing (spaceOf id) := obeys_spaceOf id
  refine .bind (fun _ => rfl) fun _ => ?_
  split
  · grind
  · grind
  · grind
  · contradiction
  · contradiction
  · grind

end Script

variable {σ : Type} [Store.Source σ]

namespace Blueprint

omit [Store.Source σ] in
/-- The end of the loading of a root leaves the world as it is or links the root. -/
theorem world_linkRoot (root refused : Nat) (label : String) (failure : Option Abrupt)
    (worker : Worker σ) :
    (left (linkRoot root refused label failure) worker).store = worker.store ∧
      ((left (linkRoot root refused label failure) worker).world = worker.world ∨
        (left (linkRoot root refused label failure) worker).world =
          { left (linkModule root) worker.world with requests := [] }) := by
  cases failure with
  | some abrupt =>
    rw [left, linkRoot, bind_of_ok (get_run worker)]
    dsimp only
    generalize worker.session.map _ = taken
    obtain _ | ⟨_ | failure, session⟩ := taken <;> exact ⟨rfl, .inl rfl⟩
  | none =>
    cases linked : linkModule root worker.world with
    | ok _ w' =>
      rw [left_of_ok (linkRoot_of_ok linked refused label), left_of_ok linked]
      exact ⟨rfl, .inr rfl⟩
    | error abrupt w' =>
      rw [left_of_ok (linkRoot_of_error linked refused label), left_of_error linked]
      exact ⟨rfl, .inr rfl⟩

variable {base : World} {rules : Rules} {content : Path → Except Store.Error Bytes} {root : Nat}
  {worker : Worker (Store.Watched σ)}

omit [Store.Source σ] in
theorem final_finish (root refused : Nat) (label : String) (loading : Hosted σ PUnit)
    (worker : Worker σ) :
    ∃ failure, (finish root refused label loading).final worker =
      left (linkRoot root refused label failure) (left loading worker) := by
  have ends {failure : Option Abrupt} {after : Worker σ}
      (tried : caught loading worker = .ok failure after) :
      (finish root refused label loading).final worker =
        left (linkRoot root refused label failure) after := by
    have same : finish root refused label loading worker =
        (linkRoot root refused label failure >>= fun result => pure (root, result)) after :=
      bind_of_ok tried _
    rw [final_congr same, final_bind_pure, left_eq_final]
  cases done : loading worker with
  | ok _ after =>
    rw [left_of_ok done]
    exact ⟨none, ends (by rw [caught, done])⟩
  | error abrupt after =>
    rw [left_of_error done]
    exact ⟨some abrupt, ends (by rw [caught, done])⟩

/-- Loading a root adds to the world. -/
theorem dormant_loading (still : worker.Still base rules content root) (none : worker.graphs = #[])
    (bodies : (left (loadGraph root >>= settled) worker).store.HasBodies rules content) :
    (left (loadGraph root >>= settled) worker).Dormant base rules content root ∧
      worker.world.Retains (left (loadGraph root >>= settled) worker).world := by
  obtain ⟨begun, dormant, _, retains, loads⟩ := sleeps_loadGraph still none
  have sleeps : begun.Sleeps base rules content root (left (loadGraph root >>= settled) worker) := by
    cases loaded : loadGraph root worker with
    | ok promise after =>
      rw [left_of_ok loaded] at loads
      rw [left, bind_of_ok loaded]
      exact IsTrans.trans (r := Worker.Sleeps base rules content root) _ _ _ loads
        (sleeps_settled promise after)
    | error abrupt after =>
      rw [left_of_error loaded] at loads
      rw [left, bind_of_error loaded]
      exact loads
  exact (sleeps.2 bodies dormant).imp_right retains.trans

/-- All that follows the entry of a root adds to the world. -/
theorem arranged_finish (still : worker.Still base rules content root) (none : worker.graphs = #[])
    (refused : Nat) (label : String)
    (bodies : ((finish root refused label (loadGraph root >>= settled)).final
      worker).store.HasBodies rules content) :
    base.Arranged ((finish root refused label (loadGraph root >>= settled)).final worker).world := by
  obtain ⟨failure, ends⟩ := final_finish root refused label (loadGraph root >>= settled) worker
  rw [ends] at bodies ⊢
  obtain ⟨store, same | linked⟩ := world_linkRoot root refused label failure
    (left (loadGraph root >>= settled) worker)
  · rw [store] at bodies
    rw [same]
    exact (dormant_loading still none bodies).1.assembled.toArranged
  · rw [store] at bodies
    have dormant := (dormant_loading still none bodies).1
    rw [linked]
    exact (arranged_linkModule dormant.root dormant.assembled).forget []

/-- A new world has no modules, and has run none. -/
theorem empty_newWorld {blueprint : Blueprint} {globals : Globals} {w : World}
    (made : blueprint.newWorld globals = .ok w) : w.modules = #[] ∧ w.executed = [] := by
  have size : World.SameModules blueprint.emptyWorld w := newWorld_obeys made
  have executed : World.ExecutesNothing blueprint.emptyWorld w := newWorld_obeys made
  exact ⟨Array.size_eq_zero_iff.mp size, executed⟩

/-- The root of a build is added to a new world, and there is nothing to do yet. -/
theorem still_of_addRoot {blueprint : Blueprint} {globals : Globals} (rules : Rules) {store : σ}
    (directory : Path) (log : List Text.Units) {content : Path → Except Store.Error Bytes} {w : World}
    (holds : Store.Holds store content) (made : blueprint.newWorld globals = .ok w)
    {tree : ModuleTree} (read : Grammar.readModule blueprint.source.toList = .ok tree) (origin : Origin) :
    ∃ root after, lift (blueprint.addRoot origin tree) (freshWorker rules store directory log w) =
        .ok root after ∧ after.graphs = #[] ∧
      ({ after with session := after.session.map (·.enter origin root) } :
        Worker (Store.Watched σ)).Still { w with log } rules content root := by
  obtain ⟨jobs, requests⟩ := calm_newWorld made
  have empty : ({ w with log } : World).modules = #[] := (empty_newWorld made).1
  let first : Worker (Store.Watched σ) := freshWorker rules store directory log w
  have adds (base : World) : Obeys base.Adds (blueprint.addRoot origin tree) :=
    .bind (adds_addUnit _) fun _ => adds_addRead read _
  obtain ⟨root, w', done, ⟨rfl, module, grown, _⟩, adds⟩ := lift_of_runs
    (((runs_addCode _ tree first.world).adds fun base => adds base first.world).mono
      fun root w' added => And.intro added <| by
        obtain ⟨⟨_, _, grown, _⟩, _⟩ := added
        exact grown.requests.trans requests)
  refine ⟨_, _, done, rfl, ?_⟩
  have size : w'.modules.size = first.world.modules.size + 1 := by
    rw [grown.modules]
    simp
  refine
    { assembled := (adds _ (World.assembled_of_empty empty)).1, jobs := grown.jobs.trans jobs
      requests := grown.requests.trans requests, session := ?_, holds
      root := Nat.lt_of_lt_of_eq (Nat.lt_succ_self _) size.symm
      asked := by rintro load (queued | stands) <;> contradiction }
  -- There is a record of the root at most.
  have only (p : Path) (record : Nat) (member : (p, record) ∈
      (Session.enter { rules, isBound := true } origin first.world.modules.size).records) :
      record = first.world.modules.size := by
    cases origin with
    | anonymous => contradiction
    | file key => exact (Prod.mk.inj (List.mem_singleton.mp member)).2
  refine ⟨_, rfl, by cases origin <;> rfl, fun p record member => ?_, fun p record member other => ?_⟩
  · rw [only p record member, size]
    exact Nat.lt_succ_self _
  · exact absurd (only p record member) other

/-- A build adds to a new world. -/
theorem arranged_buildModule (blueprint : Blueprint) (globals : Globals) (rules : Rules) (store : σ)
    (directory : Path) (log : List Text.Units) {content : Path → Except Store.Error Bytes}
    (holds : Store.Holds store content)
    (bodies : (blueprint.buildModule globals
      (freshHost rules store directory log)).2.store.HasBodies rules content) :
    (blueprint.buildModule globals (freshHost rules store directory log)).2.log = log ∧
      ∀ module, (blueprint.buildModule globals (freshHost rules store directory log)).1 = .ok module →
        ∃ w, blueprint.newWorld globals = .ok w ∧ { w with log }.Arranged module.world := by
  rcases blueprint.buildModule_cases globals (freshHost rules store directory log) with
    ⟨error, built⟩ | ⟨session, bound, cases⟩
  · rw [built]
    exact ⟨rfl, fun _ clash => by contradiction⟩
  obtain rfl := Except.ok.inj bound
  rcases cases with ⟨error, built⟩ | ⟨w, tree, made, read, built⟩
  · rw [built]
    exact ⟨rfl, fun _ clash => by contradiction⟩
  obtain ⟨root, after, added, none, still⟩ := still_of_addRoot rules directory log holds made
    read (blueprint.rootOrigin directory)
  have begun := begin_of_added added (blueprint.rootOrigin directory) w.refusals.length blueprint.label
  generalize started : ({ after with
    session := after.session.map (·.enter (blueprint.rootOrigin directory) root) } :
      Worker (Store.Watched σ)) = entered at still begun
  have bare : entered.graphs = #[] := by rw [← started]; exact none
  change blueprint.buildModule globals (freshHost rules store directory log) =
    conclude blueprint.label w.refusals.length
      { freshHost rules store directory log with session := { rules, isBound := true } }
      (begin (blueprint.addRoot (blueprint.rootOrigin directory) tree) (blueprint.rootOrigin directory)
        w.refusals.length blueprint.label (freshWorker rules store directory log w)) at built
  rw [built, begun] at bodies ⊢
  rw [conclude_host] at bodies ⊢
  have arranged := arranged_finish still bare w.refusals.length blueprint.label bodies
  refine ⟨arranged.log, fun module done => ⟨w, made, ?_⟩⟩
  rw [world_of_conclude done]
  exact arranged

/-- Building a module runs nothing of the files that it loads. As long as every CommonJS file that is read
is the body of a function, a build records nothing, whether it succeeds or not, and all that was in its
new world is there as it was: what the host's global names are bound to, all other objects, and the global
scope; and no module's code has begun to run. What is done with a module afterwards begins no module's
code, but for its evaluation and for that of a dynamic import. -/
theorem builds_execute_nothing (blueprint : Blueprint) (globals : Globals) (rules : Rules) (store : σ)
    (directory : Path) (log : List Text.Units) {content : Path → Except Store.Error Bytes}
    (holds : Store.Holds store content) :
    let built := blueprint.buildModule globals (freshHost rules store directory log)
    (built.2.store.HasBodies rules content →
        built.2.log = log ∧ ∀ module, built.1 = .ok module →
          ∃ w, blueprint.newWorld globals = .ok w ∧ { w with log }.Extends module.world ∧
            module.world.executed = []) ∧
      (∀ (module : BuiltModule) (host : Host σ) (name : String),
        (module.exportedJson? host name).2.1.world.executed = module.world.executed) ∧
      (∀ (callee this : Value) (args : List Value) (w : World),
        (left (invoke callee this args) w).executed = w.executed) ∧
      ∀ (job : Job) (w : World), job.evaluates = false →
        (left (runJob job) w).executed = w.executed := by
  refine ⟨fun bodies => ?_, fun module host name => ?_, fun callee this args w => ?_,
    fun job w other => executesNothing_runJob other w⟩
  · obtain ⟨silent, adds⟩ := arranged_buildModule blueprint globals rules store directory log holds bodies
    refine ⟨silent, fun module done => ?_⟩
    obtain ⟨w, made, arranged⟩ := adds module done
    exact ⟨w, made, arranged.toExtends, arranged.executed.trans (empty_newWorld made).2⟩
  · exact BuiltModule.exportedJson_leaves (R := World.ExecutesNothing) (fun _ _ => rfl) module host name
  · exact obeys_invoke (R := World.ExecutesNothing) callee this args w

/-- A module that imports a CommonJS file. -/
def importer : Blueprint :=
  { source := "import './a.cjs';", origin := .file ⟨"/w/index.mjs"⟩ }

def commonFile (text : String) : Store.Recording :=
  { inner := .ofList [(⟨"/w/a.cjs"⟩, Text.Utf8.encode text.toList)] }

def recorder : Globals := [("rec", .recorder 1)]

/-- A call in the body of a CommonJS file is not made when a module that imports the file is built. -/
theorem execute_nothing_of_body :
    (importer.buildModule recorder (freshHost cycleRules (commonFile "rec('run');") ⟨"/"⟩ [])).1.isOk ∧
      (importer.buildModule recorder
        (freshHost cycleRules (commonFile "rec('run');") ⟨"/"⟩ [])).2.log = [] := by
  have bodies : Wrapper.AreBodies cycleRules (commonFile "rec('run');").inner.read :=
    areBodies_of_files cycleRules (by decide +kernel)
  refine ⟨by decide +kernel, ?_⟩
  exact ((builds_execute_nothing importer recorder cycleRules (commonFile "rec('run');") ⟨"/"⟩ []
    (Store.holds_recording _)).1 fun path _ => bodies path).1

/-- A file that ends the function around it makes its call when it is loaded. -/
theorem not_silent_of_every_file :
    ¬∀ text : String, (importer.buildModule recorder
      (freshHost cycleRules (commonFile text) ⟨"/"⟩ [])).2.log = [] := by
  intro silent
  have called : (importer.buildModule recorder (freshHost cycleRules
      (commonFile "\x7d); rec('early'); (function () \x7b") ⟨"/"⟩ [])).2.log =
        [Text.Units.ofString "early"] := by decide +kernel
  rw [silent] at called
  contradiction

end Blueprint
end Isolate
