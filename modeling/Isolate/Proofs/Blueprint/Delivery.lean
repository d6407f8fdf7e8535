import Isolate.Proofs.Blueprint.Law
import Isolate.Proofs.Blueprint.Reachable
import Isolate.Proofs.Script.Delivery

/-!
# Builds and runs of modules that pass a value on

A module that passes on a name of its surroundings is built and run in a world that holds the name, and
so is one that passes on the default export of another file.
-/

namespace Isolate

open Script Hosted

section Idle

variable {σ : Type} [Store.Source σ] {worker after : Worker σ} {promise : ObjectId}

/-- Nothing is left to do. -/
structure Worker.IsIdle (worker : Worker σ) : Prop where
  queue : worker.queue = []
  slots : lowestLoad? worker.slots = none
  jobs : worker.world.jobs = []

theorem rounds_of_idle (idle : worker.IsIdle) {fuel : Nat} (fueled : 0 < fuel) :
    rounds fuel worker = .ok ⟨⟩ worker := by
  have taken : takeSlots worker = worker := by
    rw [takeSlots, idle.queue, List.foldl_nil, ← idle.queue]
  have filled : (modify takeSlots : Hosted σ PUnit) worker = .ok ⟨⟩ worker :=
    congrArg (EStateM.Result.ok _) taken
  obtain ⟨fuel, rfl⟩ := Nat.exists_eq_add_one.mpr fueled
  refine Worker.rounds_of_none ?_
  rw [Hosted.round_eq, bind_of_ok filled, bind_of_ok (get_run worker), idle.slots, idle.jobs]
  rfl

/-- When nothing is left to do, a promise that was fulfilled ends well. -/
theorem settled_of_fulfilled {value : Value} (ran : rounds stepLimit worker = .ok ⟨⟩ after)
    (state : after.world.promiseState? promise = some (.fulfilled value)) :
    settled promise worker = .ok ⟨⟩ after := by
  have drained : drain worker = .ok ⟨⟩ after := by rw [drain, ran]
  rw [settled, bind_of_ok drained, bind_of_ok (get_run after), state]
  rfl

/-- When nothing is left to do, a promise that was rejected fails. -/
theorem settled_of_rejected {reason : Value} (ran : rounds stepLimit worker = .ok ⟨⟩ after)
    (state : after.world.promiseState? promise = some (.rejected reason)) :
    settled promise worker = .error (.thrown reason none) after := by
  have drained : drain worker = .ok ⟨⟩ after := by rw [drain, ran]
  rw [settled, bind_of_ok drained, bind_of_ok (get_run after), state]
  rfl

/-- What runs in the world and imports nothing. -/
theorem lift_of_ok {α : Type} {σ : Type} {worker : Worker σ} {action : Action α} {value : α}
    {w : World} (done : action worker.world = .ok value w) (requests : w.requests = []) :
    lift action worker = .ok value { worker with world := w } := by
  have same : { w with requests := [] } = w := by rw [← requests]
  rw [lift, done]
  dsimp only
  rw [same, requests, List.map_nil, List.append_nil]

end Idle

namespace BuiltModule

variable {σ : Type} [Store.Source σ]

/-- A run whose evaluation leaves nothing to do exports what its default export has become. -/
theorem run_of_delivered {module : BuiltModule} {host : Host σ} {objects : Array Object} {w : World}
    {value : Value} {kind : BindingKind}
    (evaluated : evaluateModule module.root { module.world with log := host.log } =
      .ok objects.size w) (requests : w.requests = []) (jobs : w.jobs = [])
    (made : w.objects = objects.push (promiseObject (.fulfilled .undefined)))
    (exports : (w.module module.root).exports = [.own defaultExport defaultBinding])
    (unread : (w.module module.root).space = none)
    (bound : (w.scope (w.module module.root).scope).bindings.lookup defaultBinding =
      some (.held (some value) kind)) :
    module.run host = (.ok ⟨⟩,
      { module with
        world := w.withSpace module.root (w.module module.root).scope
        exports := some [("default", value)] },
      { host with session := host.session.clearFailures, log := w.log }) := by
  let begun := host.worker module.world
  let ended : Worker σ := { begun with world := w }
  have lifted : lift (evaluateModule module.root) begun = .ok objects.size ended :=
    lift_of_ok evaluated requests
  have idle : ended.IsIdle := ⟨rfl, rfl, jobs⟩
  have ran : rounds stepLimit ended = .ok ⟨⟩ ended := rounds_of_idle idle (by decide)
  have done : module.evaluate begun = .ok ⟨⟩ ended :=
    (bind_of_ok lifted _).trans (settled_of_fulfilled ran (World.promiseState?_of_push made))
  rw [run_of_evaluated done, collectExports_own exports unread bound]
  rfl

omit [Store.Source σ] in
/-- What the default export of a module is, if it exports nothing else. -/
theorem project_default {α : Type} {module : BuiltModule} {value : Value}
    (exports : module.exports = some [("default", value)]) (f : Value → Option α) :
    module.project "default" f = .ok (f value) := by
  rw [project, export?, exported, exports]
  rfl

end BuiltModule

namespace Blueprint

section Ends

variable {σ : Type} {session : Session Nat} {root : Nat} {begun ended : Worker σ}

/-- A graph that was loaded is linked. -/
theorem finish_of_ok {loading : Hosted σ PUnit} {refused : Nat} {label : String} {w' : World}
    (loaded : loading begun = .ok ⟨⟩ ended)
    (linked : linkModule root ended.world = .ok ⟨⟩ w') (requests : w'.requests = []) :
    finish root refused label loading begun = .ok (root, .ok ⟨⟩)
      { ended with session := ended.session.map (·.clearFailures), world := w' } := by
  have tried : caught loading begun = .ok none ended := by rw [caught, loaded]
  have same : { w' with requests := [] } = w' := by rw [← requests]
  have links := linkRoot_of_ok linked refused label
  rw [requests, same, List.map_nil, List.append_nil] at links
  exact (bind_of_ok tried _).trans (bind_of_ok links _)

/-- A graph that was not loaded fails as what was imported did. -/
theorem finish_of_error {loading : Hosted σ PUnit} {refused : Nat} {label : String}
    {abrupt : Abrupt} {error : Error} (failed : loading begun = .error abrupt ended)
    (here : ended.session = some session) (noted : session.failures = [error]) :
    finish root refused label loading begun = .ok (root, .error error)
      { ended with session := some session.clearFailures } := by
  have tried : caught loading begun = .ok (some abrupt) ended := by rw [caught, failed]
  have taken (text : List Char) :
      session.takeFailure text true = (some error, session.clearFailures) := by
    rw [Session.takeFailure, noted, List.find?_singleton]
    cases Text.contains text error.describe.toList <;> rfl
  have reported : linkRoot root refused label (some abrupt) ended =
      .ok (.error error) { ended with session := some session.clearFailures } := by
    rw [linkRoot, bind_of_ok (get_run ended), here, Option.map_some, taken]
    rfl
  exact (bind_of_ok tried _).trans (bind_of_ok reported _)

end Ends
def globalNames : Scope :=
  { parent := none, object := some Intrinsic.global.id, isFunction := true }

def moduleNames (bindings : List (String × Binding)) : Scope :=
  { parent := some globalScope, isFunction := true, bindings }

/-- A root that passes a name on, as it was added to a new world. -/
def passingRoot (imports : List ImportEntry) : Module :=
  { body := .code 0, scope := 1, requests := imports.map ImportEntry.specifier, imports
    exports := [.own defaultExport defaultBinding] }

def rootUnit (blueprint : Blueprint) (origin : Origin) (tree : ModuleTree) : CodeUnit :=
  { origin := origin.codeOrigin, functions := (tree.code blueprint.source.toList).functions
    referrer := origin }

def furnished (blueprint : Blueprint) (objects : Array Object) (log : List Text.Units)
    (units : Array CodeUnit) (scopes : Array Scope) (modules : Array Module) : World :=
  { blueprint.emptyWorld with objects, log, units, scopes, modules }

/-- The default export of a module that has not run. -/
def unset : String × Binding := (defaultBinding, .held none .constant)

section Passing

variable {σ : Type} (blueprint : Blueprint) (objects : Array Object) (log : List Text.Units)
  (session : Session Nat) (store : σ) {unit : CodeUnit} {origin : Origin}

/-- A root that passes a name on is added to a new world. -/
theorem addRoot_passing {tree : ModuleTree} {name : String} {imports : List ImportEntry}
    (passes : tree.PassesOn name imports) :
    lift (blueprint.addRoot origin tree)
      (⟨blueprint.furnished objects log #[] #[globalNames] #[], some session, store,
        [], [], [], #[]⟩ : Worker σ) =
      .ok 0 ⟨blueprint.furnished objects log #[blueprint.rootUnit origin tree]
        #[globalNames, moduleNames []] #[passingRoot imports], some session, store,
        [], [], [], #[]⟩ := by
  have same : { passingRoot imports with
      requests := tree.requests
      imports := tree.imports
      exports := tree.exports
      awaits := tree.awaits } = passingRoot imports := by
    rw [passes.requests, passes.imports, passes.exports, passes.awaits]
    rfl
  rw [← same]
  rfl

/-- What requests nothing is loaded at once. -/
theorem loadGraph_passing :
    loadGraph 0 (⟨blueprint.furnished objects log #[unit] #[globalNames, moduleNames []]
      #[passingRoot []], some session, store, [], [], [], #[]⟩ : Worker σ) =
      .ok objects.size ⟨blueprint.furnished (objects.push (promiseObject (.fulfilled .undefined)))
        log #[unit] #[globalNames, moduleNames []] #[passingRoot []], some session, store,
        [], [], [], #[{ promise := objects.size, isLoading := false, pending := 0 }]⟩ := by
  let fresh : Worker σ :=
    ⟨blueprint.furnished objects log #[unit] #[globalNames, moduleNames []] #[passingRoot []],
      some session, store, [], [], [], #[]⟩
  let begun (objects' : Array Object) : Worker σ :=
    { fresh with
      world := { fresh.world with objects := objects' }
      graphs := #[{ promise := objects.size, isLoading := false, pending := 0 }] }
  have visited : loadGraph 0 fresh = (do
      lift (settle objects.size (.ok .undefined))
      pure objects.size : Hosted σ ObjectId)
        (begun (objects.push (promiseObject (.pending [])))) := rfl
  have settled : lift (settle objects.size (.ok .undefined))
      (begun (objects.push (promiseObject (.pending [])))) =
        .ok ⟨⟩ (begun (objects.push (promiseObject (.fulfilled .undefined)))) := by
    have done := settle_push fresh.world objects #[] (.ok .undefined)
    rw [Array.append_empty, Array.append_empty] at done
    exact lift_of_ok done rfl
  exact visited.trans (bind_of_ok settled _)

/-- A root without imports is linked: its default export has no value yet. -/
theorem linkModule_passing {code : FunctionCode} {name : String}
    (own : unit.functions.back? = some code) (passes : code.PassesOn name) :
    linkModule 0 (blueprint.furnished objects log #[unit] #[globalNames, moduleNames []]
      #[passingRoot []]) =
      .ok ⟨⟩ (blueprint.furnished objects log #[unit] #[globalNames, moduleNames [unset]]
        #[{ passingRoot [] with status := .linked }]) := by
  let w := blueprint.furnished objects log #[unit] #[globalNames, moduleNames []] #[passingRoot []]
  have body : (w.module 0).body = .code 0 := rfl
  have bound : bindModule 0 w = .ok ⟨⟩ (blueprint.furnished objects log #[unit]
      #[globalNames, moduleNames [unset]] #[passingRoot []]) :=
    bindModule_passesOn body own passes rfl rfl rfl
  have unfolded : linkModule 0 w = (do
      [0].forM bindModule
      [0].forM fun id => modifyModule id fun m => { m with status := .linked } : Action PUnit) w := rfl
  rw [unfolded]
  exact run_bind_of_ok (run_bind_of_ok bound _) _

/-- A root that was linked is evaluated: its default export is the value of the name. -/
theorem evaluateModule_passing {code : FunctionCode} {name : String} {value : Value}
    (own : unit.functions.back? = some code) (passes : code.PassesOn name)
    (gives : (blueprint.furnished (objects.push (promiseObject (.pending []))) log #[unit]
      #[globalNames, moduleNames [unset]] #[]).Gives 1 name value) :
    ∃ root : Module, root.exports = [.own defaultExport defaultBinding] ∧ root.space = none ∧
      root.scope = 1 ∧
      evaluateModule 0 (blueprint.furnished objects log #[unit]
        #[globalNames, moduleNames [unset]] #[{ passingRoot [] with status := .linked }]) =
        .ok objects.size { blueprint.furnished (objects.push (promiseObject (.fulfilled .undefined)))
          log #[unit] #[globalNames, moduleNames [(defaultBinding, .held (some value) .constant)]]
          #[root] with executed := [0] } := by
  let promised := objects.push (promiseObject (.pending []))
  let w (objects : Array Object) (root : Module) := blueprint.furnished objects log #[unit]
    #[globalNames, moduleNames [unset]] #[root]
  let linked : Module := { passingRoot [] with status := .linked }
  let root : Module := { linked with result := some objects.size }
  let begun : Module := { root with status := .evaluating }
  let ended : Module := { begun with status := .evaluated, cycleRoot := some 0 }
  let delivers (root : Module) : World := { blueprint.furnished promised log #[unit]
    #[globalNames, moduleNames [(defaultBinding, .held (some value) .constant)]] #[root] with
    executed := [0] }
  have ran : runModule 0 (w promised begun) = .ok ⟨⟩ (delivers begun) :=
    runModule_passesOn (w := w promised begun) rfl own passes gives rfl
  have evaluated : evaluateInner 2 0 ([], 0) (w promised root) = .ok ([], 1) (delivers ended) := by
    have unfolded : evaluateInner 2 0 ([], 0) (w promised root) = (do
        runModule 0
        endCycle 0 ([0], 1) : Action (List Nat × Nat)) (w promised begun) := rfl
    rw [unfolded]
    exact run_bind_of_ok ran _
  refine ⟨ended, rfl, rfl, rfl, ?_⟩
  exact evaluateModule_of_ok (w := w objects linked) rfl rfl evaluated rfl rfl

end Passing
section Runs

variable {σ : Type} [Store.Source σ] {blueprint : Blueprint} {globals : Globals} {host : Host σ}
  {session : Session Nat} {objects : Array Object}

/-- A module that passes a name on is built, whatever the name stands for. -/
theorem buildModule_passing {x : String} (bound : host.session.bind = .ok session)
    (new : blueprint.newWorld globals = .ok (blueprint.furnished objects [] #[] #[globalNames] #[]))
    (source : blueprint.source = passingSource x)
    (identifier : Text.IsIdentifier x) (isName : Grammar.moduleContext.isName x) :
    ∃ unit code next, unit.functions.back? = some code ∧ code.PassesOn x ∧
      blueprint.buildModule globals host =
        (.ok {
          world := blueprint.furnished (objects.push (promiseObject (.fulfilled .undefined)))
            host.log #[unit] #[globalNames, moduleNames [unset]]
            #[{ passingRoot [] with status := .linked }]
          root := 0
          label := blueprint.label }, { host with session := next }) := by
  obtain ⟨tree, read, passes⟩ := readModule_passingSource identifier isName
  rw [← source] at read
  obtain ⟨code, own, passes'⟩ := passes.code blueprint.source.toList
  let entered := session.enter (blueprint.rootOrigin host.directory) 0
  let ended : Worker σ := ⟨blueprint.furnished (objects.push (promiseObject (.fulfilled .undefined)))
    host.log #[blueprint.rootUnit (blueprint.rootOrigin host.directory) tree]
    #[globalNames, moduleNames []] #[passingRoot []], some entered, host.store, [], [], [],
    #[{ promise := objects.size, isLoading := false, pending := 0 }]⟩
  have begun : blueprint.buildModule globals host = conclude _ _ _ (finish 0 _ _ _ ended) :=
    buildModule_of_entered bound new read
      (blueprint.addRoot_passing objects host.log session host.store passes)
      (blueprint.loadGraph_passing objects host.log entered host.store)
  have ran : rounds stepLimit ended = .ok ⟨⟩ ended := rounds_of_idle ⟨rfl, rfl, rfl⟩ (by decide)
  have loaded : settled objects.size ended = .ok ⟨⟩ ended :=
    settled_of_fulfilled ran (World.promiseState?_of_push rfl)
  have linked (refused : Nat) : finish 0 refused blueprint.label (settled objects.size) ended = _ :=
    finish_of_ok loaded (blueprint.linkModule_passing _ host.log own passes') rfl
  refine ⟨blueprint.rootUnit (blueprint.rootOrigin host.directory) tree, code, entered.clearFailures,
    own, passes', ?_⟩
  rw [begun, linked]
  rfl

/-- A module that passes a name on exports the value of the name. -/
theorem run_passing (host : Host σ) (label : String) {x : String} {value : Value} {unit : CodeUnit}
    {code : FunctionCode} (own : unit.functions.back? = some code) (passes : code.PassesOn x)
    (gives : (blueprint.furnished (objects.push (promiseObject (.pending []))) host.log #[unit]
      #[globalNames, moduleNames [unset]] #[]).Gives 1 x value) :
    ∃ module, (BuiltModule.run ⟨blueprint.furnished objects host.log #[unit]
      #[globalNames, moduleNames [unset]] #[{ passingRoot [] with status := .linked }], 0, label, none⟩
        host : Except Error Unit × BuiltModule × Host σ) =
          (.ok ⟨⟩, module, { host with session := host.session.clearFailures }) ∧
      module.exports = some [("default", value)] ∧
      module.world.objects = (objects.push (promiseObject (.fulfilled .undefined))).push
        (spaceObject [ownExport 1]) := by
  let module : BuiltModule := ⟨blueprint.furnished objects host.log #[unit]
    #[globalNames, moduleNames [unset]] #[{ passingRoot [] with status := .linked }], 0, label, none⟩
  obtain ⟨root, exports, space, scope, evaluated⟩ :=
    blueprint.evaluateModule_passing objects host.log own passes gives
  let ended : World := { blueprint.furnished
      (objects.push (promiseObject (.fulfilled .undefined))) host.log #[unit]
      #[globalNames, moduleNames [(defaultBinding, .held (some value) .constant)]] #[root] with
    executed := [0] }
  have bound : (ended.scope root.scope).bindings.lookup defaultBinding =
      some (.held (some value) .constant) := by
    rw [scope]
    rfl
  have ran : module.run host = _ :=
    BuiltModule.run_of_delivered evaluated rfl rfl rfl exports space bound
  refine ⟨_, ran, rfl, ?_⟩
  change Array.push _ (spaceObject [ownExport root.scope]) = _
  rw [scope]
  rfl

end Runs
end Blueprint
end Isolate
