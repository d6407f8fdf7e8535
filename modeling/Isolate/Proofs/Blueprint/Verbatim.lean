import Isolate.Proofs.Blueprint.Delivery
import Isolate.Proofs.Text.Utf8

/-!
# Imports of texts and bytes

A text that is imported is the text that its bytes encode, character for character, and bytes that are
imported are those of the file. Bytes that encode no text cannot be imported as one: the build fails, and
the file leaves no record.
-/

namespace Isolate

open Script Hosted

namespace Hosted

section Importing

variable {σ : Type} [Store.Source σ] {worker : Worker σ} {session : Session Nat}
  {referrer : Origin} {specifier : Text.Units} {p : Path} {kind : Kind.Supported} {bytes : Bytes}
  {w : World}

/-- What an import of a file without a record comes to is what its loader does. -/
theorem resolve_of_load (target : referrer.target specifier.toString = some p)
    (unknown : session.record? p = none)
    (classified : session.rules.classify p = some (.supported kind))
    (content : (Store.Source.read worker.store p).1 = .ok bytes) {result : Except Error Nat}
    (loads : Loader.load p kind bytes worker.world = .ok result w) (requests : w.requests = []) :
    resolve session referrer specifier worker = finishLoad p kind result
      { worker with
        session := some ((session.refer p).beginLoad p)
        store := (Store.Source.read worker.store p).2
        world := w } := by
  have plan : session.plan referrer specifier.toString = (.load p kind, session.refer p) := by
    rw [session.plan_of_target target, Session.planPath, unknown, classified]
  let begun : Worker σ :=
    { worker with
      session := some ((session.refer p).beginLoad p)
      store := (Store.Source.read worker.store p).2 }
  have loaded : lift (Loader.load p kind bytes) begun = .ok result { begun with world := w } :=
    lift_of_ok loads requests
  refine (resolve_eq plan).trans ((loadPath_eq _ p kind).trans ?_)
  dsimp only
  rw [content]
  exact bind_of_ok loaded _

/-- An import whose file becomes a module. -/
theorem importModule_of_record (here : worker.session = some session)
    (target : referrer.target specifier.toString = some p)
    (unknown : session.record? p = none)
    (classified : session.rules.classify p = some (.supported kind))
    (content : (Store.Source.read worker.store p).1 = .ok bytes) {record : Nat}
    (loads : Loader.load p kind bytes worker.world = .ok (.ok record) w)
    (requests : w.requests = []) :
    importModule referrer specifier worker = .ok (.ok record)
      { worker with
        session := some ((((session.refer p).beginLoad p).endLoad p).accept p kind record)
        store := (Store.Source.read worker.store p).2
        world := w } := by
  have resolved := resolve_of_load target unknown classified content loads requests
  exact importModule_of_ok here (resolved.trans (finishLoad_ok rfl p kind record))

/-- An import whose file becomes no module. -/
theorem importModule_of_unloaded (here : worker.session = some session)
    (target : referrer.target specifier.toString = some p)
    (unknown : session.record? p = none)
    (classified : session.rules.classify p = some (.supported kind))
    (content : (Store.Source.read worker.store p).1 = .ok bytes) {error : Error}
    (loads : Loader.load p kind bytes worker.world = .ok (.error error) w)
    (requests : w.requests = []) :
    ∃ object, importModule referrer specifier worker = .ok (.error (.object w.objects.size))
      { worker with
        session := some ((((session.refer p).beginLoad p).endLoad p).fail error)
        store := (Store.Source.read worker.store p).2
        world := { w with objects := w.objects.push object } } := by
  have resolved := resolve_of_load target unknown classified content loads requests
  let failed : Worker σ :=
    { worker with
      session := some ((((session.refer p).beginLoad p).endLoad p).fail error)
      store := (Store.Source.read worker.store p).2
      world := w }
  rw [importModule_eq here, bind_of_ok (resolved.trans (finishLoad_error rfl p kind error)),
    answer_eq rfl]
  have told : newError .error error.describe failed.world = .ok _ _ := rfl
  exact ⟨_, bind_of_ok (lift_of_ok told requests) _⟩

end Importing
end Hosted

namespace Blueprint

def defaultImport (specifier : Text.Units) (name : String) : ImportEntry :=
  ⟨specifier, .named defaultExport, name⟩

def joinedRoot (specifier : Text.Units) (name : String) : Module :=
  { passingRoot [defaultImport specifier name] with loaded := [(specifier, 1)] }

def leafModule (value : Value) : Module :=
  { body := .fixed value, scope := 2, exports := [.own defaultExport defaultBinding] }

/-- The default export of a module whose value is known, before and after it was evaluated. -/
def given (value : Option Value) : String × Binding := (defaultBinding, .held value .fixed)

section Loading

variable {σ : Type} [Store.Source σ] (blueprint : Blueprint) (objects : Array Object)
  (log : List Text.Units) {unit : CodeUnit} {session : Session Nat} {store : σ}
  {specifier : Text.Units} {name : String} {p : Path} {kind : Kind.Supported} {bytes : Bytes}

def requesting (blueprint : Blueprint) (objects : Array Object) (log : List Text.Units)
    (unit : CodeUnit) (session : Session Nat) (store : σ) (specifier : Text.Units)
    (name : String) : Worker σ :=
  ⟨blueprint.furnished (objects.push (promiseObject (.pending []))) log #[unit]
    #[globalNames, moduleNames []] #[passingRoot [defaultImport specifier name]], some session, store,
    [.request 0 0 specifier], [], [], #[{ promise := objects.size, visited := [0] }]⟩

omit [Store.Source σ] in
theorem loadGraph_importing :
    loadGraph 0 (⟨blueprint.furnished objects log #[unit] #[globalNames, moduleNames []]
      #[passingRoot [defaultImport specifier name]], some session, store, [], [], [], #[]⟩ : Worker σ) =
      .ok objects.size (blueprint.requesting objects log unit session store specifier name) := rfl

def fetched (blueprint : Blueprint) (objects more : Array Object) (log : List Text.Units)
    (unit : CodeUnit) (session : Session Nat) (store : σ) (specifier : Text.Units)
    (name : String) (value : Value) : Worker σ :=
  ⟨blueprint.furnished (objects.push (promiseObject (.fulfilled .undefined)) ++ more) log #[unit]
    #[globalNames, moduleNames [], moduleNames [given none]]
    #[joinedRoot specifier name, leafModule value], some session, store, [], [none], [0],
    #[{ promise := objects.size, isLoading := false, pending := 0, visited := [0] }]⟩

/-- The one load that a root asks for is done, and leaves nothing to do. -/
theorem rounds_requesting {ended : Worker σ}
    (runs : runLoad (.request 0 0 specifier)
      { blueprint.requesting objects log unit session store specifier name with
        queue := [], slots := [some (.request 0 0 specifier)] } = .ok ⟨⟩ ended)
    (queue : ended.queue = []) (slots : ended.slots = [some (.request 0 0 specifier)])
    (free : ended.free = []) (jobs : ended.world.jobs = []) :
    rounds stepLimit (blueprint.requesting objects log unit session store specifier name) =
      .ok ⟨⟩ { ended with slots := [none], free := [0] } := by
  let start := blueprint.requesting objects log unit session store specifier name
  have rounded : round start = .ok true { ended with slots := [none], free := [0] } := by
    have unfolded : round start = (do
        runLoad (.request 0 0 specifier)
        modify fun worker =>
          { worker with slots := worker.slots.set 0 none, free := 0 :: worker.free }
        runJobs : Hosted σ Bool)
          { start with queue := [], slots := [some (.request 0 0 specifier)] } := rfl
    have emptied : (modify fun worker : Worker σ =>
        { worker with slots := worker.slots.set 0 none, free := 0 :: worker.free } :
          Hosted σ PUnit) ended = .ok ⟨⟩ { ended with slots := [none], free := [0] } := by
      change EStateM.Result.ok _
        { ended with slots := ended.slots.set 0 none, free := 0 :: ended.free } = _
      rw [slots, free]
      rfl
    rw [unfolded, bind_of_ok runs, bind_of_ok emptied]
    exact Worker.runJobs_of_idle jobs
  have limit : stepLimit = (stepLimit - 1) + 1 := by decide
  have idle : ({ ended with slots := [none], free := [0] } : Worker σ).IsIdle := ⟨queue, rfl, jobs⟩
  rw [limit, Worker.rounds_of_more rounded]
  exact rounds_of_idle idle (by decide)

/-- A root whose import becomes a module is loaded. -/
theorem rounds_importing {more : Array Object} {value : Value}
    (target : unit.referrer.target specifier.toString = some p)
    (unknown : session.record? p = none)
    (classified : session.rules.classify p = some (.supported kind))
    (content : (Store.Source.read store p).1 = .ok bytes)
    (loads : Loader.load p kind bytes (blueprint.requesting objects log unit session store
      specifier name).world = .ok (.ok 1)
        (blueprint.furnished (objects.push (promiseObject (.pending [])) ++ more) log #[unit]
          #[globalNames, moduleNames [], moduleNames [given none]]
          #[passingRoot [defaultImport specifier name], leafModule value])) :
    rounds stepLimit (blueprint.requesting objects log unit session store specifier name) =
      .ok ⟨⟩ (blueprint.fetched objects more log unit
        ((((session.refer p).beginLoad p).endLoad p).accept p kind 1)
        (Store.Source.read store p).2 specifier name value) := by
  let taken : Worker σ :=
    { blueprint.requesting objects log unit session store specifier name with
      queue := [], slots := [some (.request 0 0 specifier)] }
  let loaded : Worker σ := { taken with
    session := some ((((session.refer p).beginLoad p).endLoad p).accept p kind 1)
    store := (Store.Source.read store p).2
    world := blueprint.furnished (objects.push (promiseObject (.pending [])) ++ more) log
      #[unit] #[globalNames, moduleNames [], moduleNames [given none]]
      #[passingRoot [defaultImport specifier name], leafModule value] }
  let ended (state : PromiseState) : Worker σ := { loaded with
    world := { loaded.world with
      objects := objects.push (promiseObject state) ++ more
      modules := #[joinedRoot specifier name, leafModule value] }
    graphs := #[{ promise := objects.size, isLoading := false, pending := 0, visited := [0] }] }
  have imports : importModule unit.referrer specifier taken = .ok (.ok 1) loaded :=
    importModule_of_record rfl target unknown classified content loads rfl
  have settles : lift (settle objects.size (.ok .undefined)) (ended (.pending [])) =
      .ok ⟨⟩ (ended (.fulfilled .undefined)) :=
    lift_of_ok (settle_push (ended (.pending [])).world objects more (.ok .undefined)) rfl
  have refers : referrerOf 0 taken = .ok unit.referrer taken := rfl
  have runs : runLoad (.request 0 0 specifier) taken = .ok ⟨⟩ (ended (.fulfilled .undefined)) := by
    rw [runLoad_request, bind_of_ok refers, bind_of_ok imports]
    exact settles
  exact blueprint.rounds_requesting objects log runs rfl rfl rfl rfl

/-- A root whose import becomes no module is given up. -/
theorem rounds_failing (target : unit.referrer.target specifier.toString = some p)
    (unknown : session.record? p = none)
    (classified : session.rules.classify p = some (.supported kind))
    (content : (Store.Source.read store p).1 = .ok bytes) {error : Error}
    (loads : Loader.load p kind bytes (blueprint.requesting objects log unit session store
      specifier name).world = .ok (.error error)
        (blueprint.requesting objects log unit session store specifier name).world) :
    ∃ reason ended,
      rounds stepLimit (blueprint.requesting objects log unit session store specifier name) =
        .ok ⟨⟩ ended ∧
      ended.world.promiseState? objects.size = some (.rejected reason) ∧
      ended.session = some ((((session.refer p).beginLoad p).endLoad p).fail error) := by
  let taken : Worker σ :=
    { blueprint.requesting objects log unit session store specifier name with
      queue := [], slots := [some (.request 0 0 specifier)] }
  have here : taken.session = some session := rfl
  obtain ⟨object, imports⟩ := importModule_of_unloaded here target unknown classified content loads rfl
  let promised := objects.push (promiseObject (.pending []))
  let reason : Value := .object promised.size
  let ended (state : PromiseState) : Worker σ := { taken with
    session := some ((((session.refer p).beginLoad p).endLoad p).fail error)
    store := (Store.Source.read store p).2
    world := { taken.world with objects := objects.push (promiseObject state) ++ #[object] }
    graphs := #[{ promise := objects.size, isLoading := false, visited := [0] }] }
  have imports' : importModule unit.referrer specifier taken = .ok (.error reason)
      { ended (.pending []) with graphs := taken.graphs } := by
    rw [imports]
    change _ = EStateM.Result.ok (Except.error reason) { ended (.pending []) with
      world := { taken.world with objects := promised ++ #[object] }
      graphs := taken.graphs }
    rw [Array.append_singleton]
    rfl
  have settles : lift (settle objects.size (.error reason)) (ended (.pending [])) =
      .ok ⟨⟩ (ended (.rejected reason)) :=
    lift_of_ok (settle_push (ended (.pending [])).world objects #[object] (.error reason)) rfl
  have refers : referrerOf 0 taken = .ok unit.referrer taken := rfl
  have runs : runLoad (.request 0 0 specifier) taken = .ok ⟨⟩ (ended (.rejected reason)) := by
    rw [runLoad_request, bind_of_ok refers, bind_of_ok imports']
    exact settles
  exact ⟨reason, _, blueprint.rounds_requesting objects log runs rfl rfl rfl rfl,
    World.promiseState?_push _ _ _ _, rfl⟩

end Loading

section Linking

variable (blueprint : Blueprint) (objects : Array Object) (log : List Text.Units)
  {unit : CodeUnit} {code : FunctionCode} {specifier : Text.Units} {name : String} {value : Value}

/-- The names of a root that imports a default export and has not run. -/
def importing (name : String) : List (String × Binding) :=
  [(name, .alias 2 defaultBinding), unset]

/-- A root that imports a default export is linked: the name stands for what the other module binds. -/
theorem linkModule_importing (own : unit.functions.back? = some code) (passes : code.PassesOn name)
    (apart : name ≠ defaultBinding) :
    linkModule 0 (blueprint.furnished objects log #[unit]
      #[globalNames, moduleNames [], moduleNames [given none]]
      #[joinedRoot specifier name, leafModule value]) =
      .ok ⟨⟩ (blueprint.furnished objects log #[unit]
        #[globalNames, moduleNames (importing name), moduleNames [given none]]
        #[{ joinedRoot specifier name with status := .linked },
          { leafModule value with status := .linked }]) := by
  let w := blueprint.furnished objects log #[unit]
    #[globalNames, moduleNames [], moduleNames [given none]]
    #[joinedRoot specifier name, leafModule value]
  let imported := blueprint.furnished objects log #[unit]
    #[globalNames, moduleNames [(name, .alias 2 defaultBinding)], moduleNames [given none]]
    #[joinedRoot specifier name, leafModule value]
  let bound := blueprint.furnished objects log #[unit]
    #[globalNames, moduleNames (importing name), moduleNames [given none]]
    #[joinedRoot specifier name, leafModule value]
  have requested : w.requested? 0 specifier = some 1 := List.lookup_cons_self
  have order : w.linkOrder 3 [] [] 0 = ([1, 0], [1, 0]) := by
    have requests : w.requestedBy 0 = [1] := List.filterMap_cons_some requested
    have unfolded : w.linkOrder 3 [] [] 0 =
        (((w.requestedBy 0).foldl (fun found other => w.linkOrder 2 found.1 found.2 other)
          ([], [0])).1 ++ [0], ((w.requestedBy 0).foldl
          (fun found other => w.linkOrder 2 found.1 found.2 other) ([], [0])).2) := rfl
    rw [unfolded, requests]
    rfl
  have exported : w.export? 1 defaultExport = .found (.binding 2 defaultBinding) :=
    w.export?_default rfl
  have stands : importBinding 0 (defaultImport specifier name) w =
      .ok (.alias 2 defaultBinding) w := importBinding_of_export requested rfl exported
  have first : bindImport 0 1 (defaultImport specifier name) w = .ok ⟨⟩ imported :=
    run_bind_of_ok stands _
  have imports : [defaultImport specifier name].forM (bindImport 0 1) w = .ok ⟨⟩ imported :=
    run_bind_of_ok first _
  have root : bindModule 0 w = .ok ⟨⟩ bound := by
    have body : (w.module 0).body = .code 0 := rfl
    have unbound : (imported.scope 1).bindings.lookup defaultBinding = none := by
      change List.lookup defaultBinding [(name, _)] = none
      rw [World.lookup_cons_eq, if_neg apart.symm]
      rfl
    have names : Scope.insert defaultBinding (.held none .constant)
        [(name, .alias 2 defaultBinding)] = importing name := by
      rw [Scope.insert, if_neg apart.symm]
      rfl
    rw [bindModule_passesOn body own passes rfl imports unbound]
    change EStateM.Result.ok _ { imported with scopes := #[globalNames, moduleNames
      (Scope.insert defaultBinding (.held none .constant) [(name, .alias 2 defaultBinding)]),
      moduleNames [given none]] } = _
    rw [names]
    rfl
  have leaf : bindModule 1 w = .ok ⟨⟩ w := rfl
  have both : [1, 0].forM bindModule w = .ok ⟨⟩ bound :=
    (run_bind_of_ok leaf _).trans (run_bind_of_ok root _)
  have unfolded : linkModule 0 w = ((w.linkOrder 3 [] [] 0).1.forM bindModule >>= fun _ =>
      (w.linkOrder 3 [] [] 0).1.forM fun id => modifyModule id fun m => { m with status := .linked }) w :=
    rfl
  rw [unfolded, order]
  exact run_bind_of_ok both _

def enterRequested (state : List Nat × Nat) (specifier : Text.Units) : Action (List Nat × Nat) := do
  match (← get).requested? 0 specifier with
  | none => pure state
  | some other => do
    let state ← evaluateInner 2 other state
    joinRequested 0 other
    pure state

theorem enterRequested_eq (state : List Nat × Nat) (specifier : Text.Units) (w : World) :
    enterRequested state specifier w =
      (match w.requested? 0 specifier with
        | none => pure state
        | some other => do
          let state ← evaluateInner 2 other state
          joinRequested 0 other
          pure state : Action (List Nat × Nat)) w := rfl

/-- A root that imports a default export is evaluated after the module that it imports: its own default
export is the value of that. -/
theorem evaluateModule_importing (own : unit.functions.back? = some code)
    (passes : code.PassesOn name) (apart : name ≠ defaultBinding) :
    ∃ root leaf : Module, root.exports = [.own defaultExport defaultBinding] ∧ root.space = none ∧
      root.scope = 1 ∧
      evaluateModule 0 (blueprint.furnished objects log #[unit]
        #[globalNames, moduleNames (importing name), moduleNames [given none]]
        #[{ joinedRoot specifier name with status := .linked },
          { leafModule value with status := .linked }]) =
        .ok objects.size { blueprint.furnished (objects.push (promiseObject (.fulfilled .undefined)))
          log #[unit] #[globalNames, moduleNames [(name, .alias 2 defaultBinding),
            (defaultBinding, .held (some value) .constant)], moduleNames [given (some value)]]
          #[root, leaf] with executed := [0, 1] } := by
  let promised := objects.push (promiseObject (.pending []))
  let linked : Module := { joinedRoot specifier name with status := .linked }
  let leaf : Module := { leafModule value with status := .linked }
  let w (objects : Array Object) (root : Module) := blueprint.furnished objects log #[unit]
    #[globalNames, moduleNames (importing name), moduleNames [given none]] #[root, leaf]
  let root : Module := { linked with result := some objects.size }
  let begun : Module := { root with status := .evaluating }
  let after : World := { blueprint.furnished promised log #[unit]
    #[globalNames, moduleNames (importing name), moduleNames [given (some value)]]
    #[begun, { leaf with status := .evaluated }] with executed := [1] }
  have requested : (w promised begun).requested? 0 specifier = some 1 := List.lookup_cons_self
  let ended (root : Module) : World := { blueprint.furnished promised log #[unit]
    #[globalNames, moduleNames [(name, .alias 2 defaultBinding),
      (defaultBinding, .held (some value) .constant)], moduleNames [given (some value)]]
    #[root, { leaf with status := .evaluated }] with executed := [0, 1] }
  have inner : evaluateInner 2 1 ([0], 1) (w promised begun) = .ok ([0], 1) after := rfl
  have gives : after.Gives 1 name value := by
    intro w' scopes _
    have stands : (w'.scope 1).bindings.lookup name = some (.alias 2 defaultBinding) := by
      rw [World.scope, scopes]
      exact List.lookup_cons_self
    have held : (w'.scope 2).bindings.lookup defaultBinding = some (.held (some value) .fixed) := by
      rw [World.scope, scopes]
      rfl
    exact loadName_of_alias stands held
  have delivers : delivered value (importing name) =
      [(name, .alias 2 defaultBinding), (defaultBinding, .held (some value) .constant)] := by
    rw [delivered, importing, Scope.insert, if_neg apart.symm]
    rfl
  have bound : (after.scope 1).bindings.lookup defaultBinding = some (.held none .constant) := by
    change List.lookup defaultBinding [(name, _), unset] = _
    rw [World.lookup_cons_eq, if_neg apart.symm]
    rfl
  have body : (after.module 0).body = .code 0 := rfl
  have ran : runModule 0 after = .ok ⟨⟩ (ended begun) := by
    rw [runModule_passesOn body own passes gives bound]
    change EStateM.Result.ok _ { after with
      scopes := #[globalNames, moduleNames (delivered value (importing name)),
        moduleNames [given (some value)]]
      executed := [0, 1] } = _
    rw [delivers]
    rfl
  have entered : enterRequested ([0], 1) specifier (w promised begun) = .ok ([0], 1) after := by
    rw [enterRequested_eq, requested]
    exact run_bind_of_ok inner _
  have evaluated : evaluateInner 3 0 ([], 0) (w promised root) =
      .ok ([], 1) (ended { begun with status := .evaluated, cycleRoot := some 0 }) := by
    have unfolded : evaluateInner 3 0 ([], 0) (w promised root) =
        (do
          let state ← [specifier].foldlM enterRequested ([0], 1)
          runRequesting 0
          endCycle 0 state : Action (List Nat × Nat)) (w promised begun) := rfl
    have all : [specifier].foldlM enterRequested ([0], 1) (w promised begun) = .ok ([0], 1) after :=
      run_bind_of_ok entered _
    rw [unfolded]
    exact (run_bind_of_ok all _).trans (run_bind_of_ok ran _)
  exact ⟨_, _, rfl, rfl, rfl, evaluateModule_of_ok (w := w objects linked) rfl rfl evaluated rfl rfl⟩

end Linking

section Runs

variable {σ : Type} [Store.Source σ] {blueprint : Blueprint} {globals : Globals} {host : Host σ}
  {entered : Session Nat} {objects more : Array Object} {x specifier : String} {p : Path}
  {kind : Kind.Supported} {bytes : Bytes} {value : Value}

/-- The file is imported by the root of a blueprint, and the rules give it a kind. -/
structure ImportsFile (blueprint : Blueprint) (host : Host σ) (entered : Session Nat)
    (x specifier : String) (p : Path) (kind : Kind.Supported) (bytes : Bytes) : Prop where
  begins : ∃ session, host.session.bind = .ok session ∧
    session.enter (blueprint.rootOrigin host.directory) 0 = entered
  source : blueprint.source = importingSource x specifier
  identifier : Text.IsIdentifier x
  bindable : Grammar.moduleContext.isBindable x
  target : (blueprint.rootOrigin host.directory).target specifier = some p
  unknown : entered.record? p = none
  sound : entered.failures = []
  classified : entered.rules.classify p = some (.supported kind)
  content : (Store.Source.read host.store p).1 = .ok bytes

theorem ImportsFile.apart (h : ImportsFile blueprint host entered x specifier p kind bytes) :
    x ≠ defaultBinding := by
  rintro rfl
  exact absurd h.identifier (by decide +kernel)

theorem ImportsFile.target_rootUnit
    (h : ImportsFile blueprint host entered x specifier p kind bytes) (tree : ModuleTree) :
    (blueprint.rootUnit (blueprint.rootOrigin host.directory) tree).referrer.target
      (Text.Units.ofString specifier).toString = some p := by
  rw [Text.Units.toString_ofString]
  exact h.target

/-- The build of a module that imports a file is what becomes of the request of its root. -/
theorem ImportsFile.buildModule_eq
    (h : ImportsFile blueprint host entered x specifier p kind bytes)
    (new : blueprint.newWorld globals = .ok (blueprint.furnished objects [] #[] #[globalNames] #[])) :
    ∃ tree session, tree.PassesOn x [defaultImport (.ofString specifier) x] ∧
      blueprint.buildModule globals host = conclude blueprint.label 0 { host with session }
        (finish 0 0 blueprint.label (settled objects.size) (blueprint.requesting objects host.log
          (blueprint.rootUnit (blueprint.rootOrigin host.directory) tree) entered host.store
          (.ofString specifier) x)) := by
  obtain ⟨tree, read, passes⟩ := readModule_importingSource h.identifier h.bindable specifier
  rw [← h.source] at read
  obtain ⟨session, bound, rfl⟩ := h.begins
  let entered := session.enter (blueprint.rootOrigin host.directory) 0
  let unit := blueprint.rootUnit (blueprint.rootOrigin host.directory) tree
  let start := blueprint.requesting objects host.log unit entered host.store (.ofString specifier) x
  have begun : blueprint.buildModule globals host = conclude _ _ _ (finish 0 _ _ _ start) :=
    buildModule_of_entered bound new read
      (blueprint.addRoot_passing objects host.log session host.store passes)
      (blueprint.loadGraph_importing objects host.log)
  exact ⟨tree, session, passes, begun⟩

/-- A module that imports a file is built, if the file becomes a module. -/
theorem buildModule_importing (h : ImportsFile blueprint host entered x specifier p kind bytes)
    (new : blueprint.newWorld globals = .ok (blueprint.furnished objects [] #[] #[globalNames] #[]))
    (loads : ∀ unit, Loader.load p kind bytes (blueprint.requesting objects host.log unit
      entered host.store (.ofString specifier) x).world = .ok (.ok 1)
        (blueprint.furnished (objects.push (promiseObject (.pending [])) ++ more) host.log #[unit]
          #[globalNames, moduleNames [], moduleNames [given none]]
          #[passingRoot [defaultImport (.ofString specifier) x], leafModule value])) :
    ∃ unit code next, unit.functions.back? = some code ∧ code.PassesOn x ∧
      blueprint.buildModule globals host =
        (.ok {
          world := blueprint.furnished
            (objects.push (promiseObject (.fulfilled .undefined)) ++ more) host.log #[unit]
            #[globalNames, moduleNames (importing x), moduleNames [given none]]
            #[{ joinedRoot (.ofString specifier) x with status := .linked },
              { leafModule value with status := .linked }]
          root := 0
          label := blueprint.label },
          { host with session := next, store := (Store.Source.read host.store p).2 }) := by
  obtain ⟨tree, session, passes, begun⟩ := h.buildModule_eq new
  obtain ⟨code, own, passes'⟩ := passes.code blueprint.source.toList
  let unit := blueprint.rootUnit (blueprint.rootOrigin host.directory) tree
  let start := blueprint.requesting objects host.log unit entered host.store (.ofString specifier) x
  let accepted := (((entered.refer p).beginLoad p).endLoad p).accept p kind 1
  let ended : Worker σ := blueprint.fetched objects more host.log unit accepted
    (Store.Source.read host.store p).2 (.ofString specifier) x value
  have ran : rounds stepLimit start = .ok ⟨⟩ ended := blueprint.rounds_importing objects host.log
    (h.target_rootUnit tree) h.unknown h.classified h.content (loads unit)
  have loaded : settled objects.size start = .ok ⟨⟩ ended := settled_of_fulfilled ran
    (ended.world.promiseState?_push objects more (.fulfilled .undefined))
  have linked : finish 0 0 blueprint.label (settled objects.size) start = _ :=
    finish_of_ok loaded (blueprint.linkModule_importing _ host.log own passes' h.apart) rfl
  refine ⟨unit, code, accepted.clearFailures, own, passes', ?_⟩
  rw [begun, linked]
  rfl

/-- A module that imports a file is not built, if the file becomes no module, and the file has no
record then. -/
theorem buildModule_failing (h : ImportsFile blueprint host entered x specifier p kind bytes)
    (new : blueprint.newWorld globals = .ok (blueprint.furnished objects [] #[] #[globalNames] #[]))
    {error : Error} (loads : ∀ w, Loader.load p kind bytes w = .ok (.error error) w) :
    (blueprint.buildModule globals host).1 = .error error ∧
      (blueprint.buildModule globals host).2.session.record? p = none := by
  obtain ⟨tree, session, -, begun⟩ := h.buildModule_eq new
  let unit := blueprint.rootUnit (blueprint.rootOrigin host.directory) tree
  let start := blueprint.requesting objects host.log unit entered host.store (.ofString specifier) x
  obtain ⟨reason, ended, ran, rejected, here⟩ := blueprint.rounds_failing objects host.log
    (h.target_rootUnit tree) h.unknown h.classified h.content (loads start.world)
  have failed : settled objects.size start = .error (.thrown reason none) ended :=
    settled_of_rejected ran rejected
  have noted : ((((entered.refer p).beginLoad p).endLoad p).fail error).failures = [error] := by
    change entered.failures ++ [error] = _
    rw [h.sound, List.nil_append]
  have reported : finish 0 0 blueprint.label (settled objects.size) start = _ :=
    finish_of_error failed here noted
  rw [begun, reported]
  exact ⟨rfl, h.unknown⟩

/-- A module that imports the default export of a file exports the value of it. -/
theorem run_importing (blueprint : Blueprint) (objects : Array Object) (host : Host σ)
    (specifier : Text.Units) (value : Value) (label : String) {unit : CodeUnit} {code : FunctionCode}
    (own : unit.functions.back? = some code) (passes : code.PassesOn x)
    (apart : x ≠ defaultBinding) :
    ∃ module host', BuiltModule.run ⟨blueprint.furnished objects host.log #[unit]
      #[globalNames, moduleNames (importing x), moduleNames [given none]]
      #[{ joinedRoot specifier x with status := .linked },
        { leafModule value with status := .linked }], 0, label, none⟩ host = (.ok ⟨⟩, module, host') ∧
      module.exports = some [("default", value)] ∧
      module.world.objects = (objects.push (promiseObject (.fulfilled .undefined))).push
        (spaceObject [ownExport 1]) := by
  let module : BuiltModule := ⟨blueprint.furnished objects host.log #[unit]
    #[globalNames, moduleNames (importing x), moduleNames [given none]]
    #[{ joinedRoot specifier x with status := .linked },
      { leafModule value with status := .linked }], 0, label, none⟩
  obtain ⟨root, leaf, exports, space, scope, evaluated⟩ :=
    blueprint.evaluateModule_importing objects host.log own passes apart
  let ended : World := { blueprint.furnished
      (objects.push (promiseObject (.fulfilled .undefined))) host.log #[unit]
      #[globalNames, moduleNames [(x, .alias 2 defaultBinding),
        (defaultBinding, .held (some value) .constant)], moduleNames [given (some value)]]
      #[root, leaf] with executed := [0, 1] }
  have bound : (ended.scope root.scope).bindings.lookup defaultBinding =
      some (.held (some value) .constant) := by
    rw [scope]
    change List.lookup defaultBinding [(x, _), (defaultBinding, _)] = _
    rw [World.lookup_cons_eq, if_neg apart.symm]
    rfl
  have ran : module.run host = _ :=
    BuiltModule.run_of_delivered evaluated rfl rfl rfl exports space bound
  refine ⟨_, _, ran, rfl, ?_⟩
  change Array.push _ (spaceObject [ownExport root.scope]) = _
  rw [scope]
  rfl

end Runs

section Kinds

variable {σ : Type} (blueprint : Blueprint) (objects : Array Object) (log : List Text.Units)
  (unit : CodeUnit) (session : Session Nat) (store : σ) (specifier : Text.Units) (name : String)
  (p : Path) {bytes : Bytes}

def bufferObject (bytes : Bytes) : Object :=
  { proto := some Intrinsic.bufferPrototype.id, nature := .buffer bytes }

theorem load_text {text : List Char} (decoded : Text.Utf8.decode bytes = .ok text) :
    Loader.load p .text bytes
      (blueprint.requesting objects log unit session store specifier name).world = .ok (.ok 1)
        (blueprint.furnished (objects.push (promiseObject (.pending [])) ++ #[]) log #[unit]
          #[globalNames, moduleNames [], moduleNames [given none]]
          #[passingRoot [defaultImport specifier name],
            leafModule (.string (Text.Units.ofList text))]) := by
  rw [Array.append_empty, Loader.load, Loader.text, decoded]
  rfl

theorem load_broken {fault : Text.Utf8.Fault} (broken : Text.Utf8.decode bytes = .error fault) :
    ∃ error, ∀ w, Loader.load p .text bytes w = .ok (.error (.read p error)) w :=
  ⟨_, fun w => by
    rw [Loader.load, Loader.text, broken]
    rfl⟩

theorem load_data :
    Loader.load p .data bytes
      (blueprint.requesting objects log unit session store specifier name).world = .ok (.ok 1)
        (blueprint.furnished (objects.push (promiseObject (.pending [])) ++ #[bufferObject bytes])
          log #[unit] #[globalNames, moduleNames [], moduleNames [given none]]
          #[passingRoot [defaultImport specifier name],
            leafModule (.object (objects.push (promiseObject (.pending []))).size)]) := by
  rw [Array.append_singleton]
  rfl

end Kinds

/-- What a blueprint exports, when it is built and run. -/
def deliver {σ α : Type} [Store.Source σ] (blueprint : Blueprint) (globals : Globals) (host : Host σ)
    (read : BuiltModule → Except Error (Option α)) : Except Error (Option α) :=
  match blueprint.buildModule globals host with
  | (.error e, _) => .error e
  | (.ok module, host) =>
    match (module.run host : Except Error Unit × BuiltModule × Host σ) with
    | (.error e, _, _) => .error e
    | (.ok _, module, _) => read module

section Delivery

variable {σ α : Type} [Store.Source σ] {blueprint : Blueprint} {globals : Globals} {host : Host σ}
  {entered : Session Nat} {objects more : Array Object} {x specifier : String} {p : Path}
  {kind : Kind.Supported} {bytes : Bytes} {value : Value}

/-- What is imported from a file is delivered. -/
theorem deliver_importing (h : ImportsFile blueprint host entered x specifier p kind bytes)
    (new : blueprint.newWorld globals = .ok (blueprint.furnished objects [] #[] #[globalNames] #[]))
    (loads : ∀ unit, Loader.load p kind bytes (blueprint.requesting objects host.log unit
      entered host.store (.ofString specifier) x).world = .ok (.ok 1)
        (blueprint.furnished (objects.push (promiseObject (.pending [])) ++ more) host.log #[unit]
          #[globalNames, moduleNames [], moduleNames [given none]]
          #[passingRoot [defaultImport (.ofString specifier) x], leafModule value]))
    (read : BuiltModule → Except Error (Option α)) :
    ∃ module : BuiltModule, module.exports = some [("default", value)] ∧
      module.world.objects = ((objects.push (promiseObject (.fulfilled .undefined)) ++ more).push
        (promiseObject (.fulfilled .undefined))).push (spaceObject [ownExport 1]) ∧
      blueprint.deliver globals host read = read module := by
  obtain ⟨unit, code, next, own, passes, built⟩ := buildModule_importing h new loads
  obtain ⟨module, host', ran, exports, made⟩ := run_importing blueprint
    (objects.push (promiseObject (.fulfilled .undefined)) ++ more)
    { host with session := next, store := (Store.Source.read host.store p).2 }
    (.ofString specifier) value blueprint.label own passes h.apart
  refine ⟨module, exports, made, ?_⟩
  rw [deliver, built]
  dsimp only
  rw [ran]

/-- What does not become a module is not delivered. -/
theorem deliver_failing (h : ImportsFile blueprint host entered x specifier p kind bytes)
    (new : blueprint.newWorld globals = .ok (blueprint.furnished objects [] #[] #[globalNames] #[]))
    {error : Error} (loads : ∀ w, Loader.load p kind bytes w = .ok (.error error) w)
    (read : BuiltModule → Except Error (Option α)) :
    blueprint.deliver globals host read = .error error := by
  have failed := (buildModule_failing h new loads).1
  rw [deliver]
  generalize blueprint.buildModule globals host = built at failed
  obtain ⟨result, host'⟩ := built
  subst failed
  rfl

end Delivery

/-- A new world holds objects, and no code. -/
theorem furnished_of_newWorld {blueprint : Blueprint} {globals : Globals} {w : World}
    (made : blueprint.newWorld globals = .ok w) :
    blueprint.newWorld globals = .ok (blueprint.furnished w.objects [] #[] #[globalNames] #[]) := by
  have same : World.IsFurnished blueprint.emptyWorld w := newWorld_obeys made
  exact made.trans (congrArg Except.ok same)

/-- A module imports the default export of a file and exports it. If the file is a text, the module
exports a string exactly if that is what the bytes of the file encode; bytes that encode no string
fail the build, with the path of the file, and leave no record. If the file is data, the module
exports its bytes. -/
theorem imports_are_verbatim {σ : Type} [Store.Source σ] {blueprint : Blueprint} {globals : Globals}
    {host : Host σ} {rules : Rules} {root p : Path} {x specifier : String} {w : World} {bytes : Bytes}
    (fresh : host.session = { rules }) (made : blueprint.newWorld globals = .ok w)
    (source : blueprint.source = importingSource x specifier)
    (identifier : Text.IsIdentifier x) (bindable : Grammar.moduleContext.isBindable x)
    (file : blueprint.origin = .file root)
    (target : (host.directory.absolute root).resolve specifier = some p)
    (apart : ¬(host.directory.absolute root).same p)
    (stored : (Store.Source.read host.store p).1 = .ok bytes) :
    (rules.classify p = some (.supported .text) →
      (∀ text : String, blueprint.deliver globals host (·.exportedText? "default") =
        .ok (some text) ↔ text.toUTF8 = bytes.toByteArray) ∧
      ((¬∃ text : String, text.toUTF8 = bytes.toByteArray) →
        (∃ error, (blueprint.buildModule globals host).1 = .error (.read p error)) ∧
          (blueprint.buildModule globals host).2.session.record? p = none)) ∧
    (rules.classify p = some (.supported .data) →
      blueprint.deliver globals host (·.exportedBytes? "default") = .ok (some bytes)) := by
  let origin : Origin := .file (host.directory.absolute root)
  have placed : blueprint.rootOrigin host.directory = origin := by rw [rootOrigin, file]
  let bound : Session Nat := { rules, isBound := true }
  have imports {kind : Kind.Supported} (classified : rules.classify p = some (.supported kind)) :
      ImportsFile blueprint host (bound.enter origin 0) x specifier p kind bytes := by
    refine ⟨⟨bound, by rw [fresh]; rfl, by rw [placed]⟩, source, identifier, bindable, ?_, ?_, rfl,
      classified, stored⟩
    · rw [placed]
      exact target
    · simp [Session.record?, Session.enter, Session.register, bound, origin, apart]
  have new := furnished_of_newWorld made
  refine ⟨fun classified => ?_, fun classified => ?_⟩
  · cases decoded : Text.Utf8.decode bytes with
    | error fault =>
      have broken (text : String) : text.toUTF8 ≠ bytes.toByteArray := fun same => by
        rw [Text.Utf8.decode_eq_ok_iff_toUTF8.mpr same.symm] at decoded
        contradiction
      obtain ⟨error, loads⟩ := load_broken p decoded
      obtain ⟨failed, unknown⟩ := buildModule_failing (imports classified) new loads
      refine ⟨fun text => ⟨fun done => ?_, fun same => absurd same (broken text)⟩,
        fun _ => ⟨⟨error, failed⟩, unknown⟩⟩
      rw [deliver_failing (imports classified) new loads] at done
      contradiction
    | ok chars =>
      obtain ⟨text, rfl⟩ : ∃ text : String, text.toList = chars := ⟨_, String.toList_ofList⟩
      have encodes := Text.Utf8.decode_eq_ok_iff_toUTF8.mp decoded
      obtain ⟨module, exports, -, delivers⟩ := deliver_importing (imports classified) new
        (fun unit => load_text _ _ _ unit _ _ _ _ p decoded) (·.exportedText? "default")
      have exported : module.exportedText? "default" = .ok (some text) := by
        rw [BuiltModule.exportedText?, BuiltModule.project_default exports]
        exact congrArg (Except.ok ∘ some) (Text.Units.toString_ofString text)
      refine ⟨fun other => ?_, fun broken => absurd ⟨text, encodes.symm⟩ broken⟩
      rw [delivers, exported, eq_comm (a := other.toUTF8), ← Text.Utf8.decode_eq_ok_iff_toUTF8, decoded]
      simp [String.toList_inj]
  · obtain ⟨module, exports, objects, delivers⟩ := deliver_importing (imports classified) new
      (fun unit => load_data _ _ _ unit _ _ _ _ p) (·.exportedBytes? "default")
    have kept : module.world.object (w.objects.push (promiseObject (.pending []))).size =
        bufferObject bytes := by
      rw [World.object, objects]
      simp [Array.getElem_push]
    rw [delivers, BuiltModule.exportedBytes?, BuiltModule.project_default exports]
    dsimp only
    rw [kept]
    rfl

/-- A text that begins with a byte order mark and ends with a character outside the basic plane. -/
def markedText : String := "\ufeffa\x00\r\n😀"

def noteRules : Rules := (Rules.compile [⟨"Text", ["**/*.txt"]⟩, ⟨"Data", ["**/*.bin"]⟩]).toOption.getD []

def noteHost : Host Store.Recording where
  session := { rules := noteRules }
  store :=
    { inner := .ofList [(⟨"/w/note.txt"⟩, Text.Utf8.encode markedText.toList),
        (⟨"/w/raw.bin"⟩, [0xff, 0x00])] }

/-- A module in a file that exports the default export of another file. -/
def passesNote (specifier : String) : Blueprint :=
  { source := importingSource "note" specifier, origin := .file ⟨"/w/index.mjs"⟩ }

/-- A byte order mark, a null character and line ends are imported as they are, and so are bytes that
encode no text. -/
theorem imports_marked_text :
    (passesNote "./note.txt").deliver [] noteHost (·.exportedText? "default") =
      .ok (some markedText) ∧
    (passesNote "./raw.bin").deliver [] noteHost (·.exportedBytes? "default") =
      .ok (some [0xff, 0x00]) := by
  have fresh : noteHost.session = { rules := noteRules } := rfl
  have made (specifier : String) : (passesNote specifier).newWorld [] =
      .ok (passesNote specifier).emptyWorld := rfl
  have source (specifier : String) : (passesNote specifier).source =
      importingSource "note" specifier := rfl
  have file (specifier : String) : (passesNote specifier).origin = .file ⟨"/w/index.mjs"⟩ := rfl
  have imports (specifier : String) (p : Path) (bytes : Bytes)
      (target : (noteHost.directory.absolute ⟨"/w/index.mjs"⟩).resolve specifier = some p)
      (apart : ¬(noteHost.directory.absolute ⟨"/w/index.mjs"⟩).same p)
      (stored : (Store.Source.read noteHost.store p).1 = .ok bytes) :=
    imports_are_verbatim fresh (made specifier) (source specifier) (by decide +kernel)
      (by decide +kernel) (file specifier) target apart stored
  constructor
  · have note := imports "./note.txt" ⟨"/w/note.txt"⟩ (Text.Utf8.encode markedText.toList)
      (by decide +kernel) (by decide +kernel) (by decide +kernel)
    refine ((note.1 (by decide +kernel)).1 markedText).mpr ?_
    exact (Text.Utf8.decode_eq_ok_iff_toUTF8.mp (Text.Utf8.decode_encode _)).symm
  · have raw := imports "./raw.bin" ⟨"/w/raw.bin"⟩ [0xff, 0x00]
      (by decide +kernel) (by decide +kernel) (by decide +kernel)
    exact raw.2 (by decide +kernel)

end Blueprint
end Isolate
