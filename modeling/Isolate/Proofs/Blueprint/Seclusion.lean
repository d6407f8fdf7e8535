import Isolate.Proofs.Blueprint.Availability
import Isolate.Proofs.Worker.GivingUp

/-!
# Strings are cut off from the files

A module that is built from a string is in no file, so that none of its imports comes to anything,
whatever the rules and the files are: those that it requests make the build fail, and those of its code
are refused when it runs.
-/

namespace Isolate

open Script Hosted

theorem Session.OnlyRefuses.refl (session : Session Nat) : session.OnlyRefuses session :=
  ⟨session.failures, rfl, fun _ => .inl⟩

/-- A failure that is taken for a text was noted, and the text tells of it. -/
theorem Session.mem_of_takeFailure {session next : Session Nat} {text : List Char} {failure : Error}
    (taken : session.takeFailure text false = (some failure, next)) :
    failure ∈ session.failures ∧ Text.contains text failure.describe.toList := by
  rw [takeFailure, if_neg Bool.false_ne_true, Option.or_none] at taken
  cases found : session.failures.find? fun e => Text.contains text e.describe.toList with
  | none =>
    rw [found] at taken
    cases (Prod.mk.inj taken).1
  | some e =>
    rw [found] at taken
    obtain rfl := Option.some.inj (Prod.mk.inj taken).1
    exact ⟨List.mem_of_find?_eq_some found, by simpa using List.find?_some found⟩

/-- The first failure is taken if a text tells of it, or of none. -/
theorem Session.takeFailure_of_first {session : Session Nat} {failure : Error} {rest : List Error}
    (first : session.failures = failure :: rest) {text : List Char}
    (told : Text.contains text failure.describe.toList ∨
      ∀ e ∈ session.failures, ¬Text.contains text e.describe.toList) :
    session.takeFailure text true = (some failure, session.clearFailures) := by
  have taken : (session.failures.find? fun e => Text.contains text e.describe.toList).or
      session.failures.head? = some failure := by
    rcases told with told | untold
    · rw [first, List.find?_cons, told]
      rfl
    · rw [List.find?_eq_none.mpr untold, first]
      rfl
  rw [takeFailure, if_pos rfl, taken]

namespace Error

theorem describe_importFromNonFile (specifier : String) :
    (importFromNonFile specifier).describe =
      s!"imports unsupported with string script (importing \"{specifier}\")" := rfl

/-- Running out of steps tells of no refused import. -/
theorem not_told_of_exhausted (w : World) (specifier : String) :
    ¬Text.contains (w.diagnostic .exhausted).toList (importFromNonFile specifier).describe.toList := by
  have text : w.diagnostic .exhausted = "RuntimeLimit: out of steps" := by
    rw [World.diagnostic, World.describeFailure, World.headText]
    rfl
  have begins : "imports unsupported with string script (importing \"".toList <+:
      (importFromNonFile specifier).describe.toList := by
    rw [describe_importFromNonFile, String.append_assoc, String.toList_append]
    exact List.prefix_append _ _
  rw [Text.contains_iff, text]
  intro inside
  have short := (begins.isInfix.trans inside).length_le
  revert short
  decide

end Error

variable {σ : Type}

namespace Worker

variable {worker : Worker σ} {session : Session Nat} {store : σ}

theorem IsSecluded.clearFailures (h : worker.IsSecluded session store) :
    ({ worker with session := worker.session.map (·.clearFailures) } : Worker σ).IsSecluded
      session store := by
  obtain ⟨_, here, failures, rfl, _⟩ := h.session
  exact { h with session := ⟨_, congrArg (Option.map _) here, [], rfl, nofun⟩ }

/-- The world may become any in which no code is in a file. -/
theorem IsSecluded.withWorld (h : worker.IsSecluded session store) {w : World}
    (anonymous : w.IsAnonymous) :
    ({ worker with world := w } : Worker σ).IsSecluded session store :=
  { h with world := anonymous }

end Worker

namespace Blueprint

variable [Store.Source σ] {session : Session Nat} {store : σ} {blueprint : Blueprint}
  {globals : Globals} {host : Host σ}

theorem secludes_loadRoot (root refused : Nat) (label : String) :
    Obeys (Worker.StaysSecluded session store)
      (loadRoot root refused label : Hosted σ (Except Error PUnit)) := by
  change Obeys (Worker.StaysSecluded session store) (caught (loadGraph root >>= settled) >>= _)
  refine .bind (obeys_caught (.bind (secludes_loadGraph root) secludes_settled)) fun caught => ?_
  cases caught with
  | some abrupt =>
    refine .get_bind fun worker h => ?_
    dsimp only
    split
    next failure session taken =>
      obtain ⟨before, here, taken⟩ := Option.map_eq_some_iff.mp taken
      have cleared := h.clearFailures
      rw [here, Option.map_some, ← Session.eq_of_takeFailure taken] at cleared
      exact cleared
    next => exact h
  | none =>
    refine .bind (fun worker h => h.clearFailures) fun _ =>
      .bind (secludes_lift (obeys_capture (obeys_linkModule root))) fun linked => ?_
    cases linked with
    | ok _ => exact .pure _
    | error abrupt => exact .bind .get fun _ => .pure _

/-- The root of a string is in no file. -/
theorem stays_addRoot (blueprint : Blueprint) (tree : ModuleTree) :
    Obeys World.StaysAnonymous (blueprint.addRoot .anonymous tree) := by
  have adds (w : World) (module : Module) :
      w.StaysAnonymous { w with modules := w.modules.push module } :=
    fun h => ⟨h.units, h.requests⟩
  exact .bind (fun w h => World.isAnonymous_addUnit h rfl) fun unit => obeys_addModule_of adds _ _

theorem secludes_begin (blueprint : Blueprint) (tree : ModuleTree) (refused : Nat) (label : String) :
    Obeys (Worker.StaysSecluded session store)
      (begin (blueprint.addRoot .anonymous tree) .anonymous refused label : Hosted σ _) :=
  .bind (secludes_lift (blueprint.stays_addRoot tree)) fun _ =>
    .bind (secludes_loadRoot _ _ _) fun _ => .pure _

theorem isAnonymous_newWorld {w : World} (made : blueprint.newWorld globals = .ok w) :
    w.IsAnonymous := by
  refine newWorld_obeys (R := World.StaysAnonymous) made ⟨fun unit member => ?_, nofun⟩
  exact absurd member (Array.not_mem_empty unit)

omit [Store.Source σ] in
theorem secluded_worker (host : Host σ) (refuses : session.OnlyRefuses host.session) {w : World}
    (h : w.IsAnonymous) : (host.worker w).IsSecluded session host.store where
  world := ⟨h.units, h.requests⟩
  asked _ waits := waits.elim nofun nofun
  session := ⟨host.session, rfl, refuses⟩
  store := rfl

omit [Store.Source σ] in
/-- What a secluded worker leaves to its host. -/
theorem leave_of_secluded {worker : Worker σ} (h : worker.IsSecluded session store) (host : Host σ) :
    session.OnlyRefuses (host.leave worker).session ∧ (host.leave worker).store = store := by
  obtain ⟨next, here, refuses⟩ := h.session
  exact ⟨by rw [Host.leave, here]; exact refuses, h.store⟩

omit [Store.Source σ] in
theorem enter_anonymous (worker : Worker σ) (root : Nat) :
    { worker with session := worker.session.map (·.enter .anonymous root) } = worker := by
  have same : worker.session.map (·.enter .anonymous root) = worker.session := Option.map_id'
  rw [same]

omit [Store.Source σ] in
/-- A build whose loading fails with a noted failure ends with that failure. -/
theorem finish_of_failure {loading : Hosted σ PUnit} {worker after : Worker σ} {abrupt : Abrupt}
    {session next : Session Nat} {failure : Error}
    (failed : loading worker = .error abrupt after) (here : after.session = some session)
    (taken : session.takeFailure (after.world.diagnostic abrupt).toList true = (some failure, next))
    (root refused : Nat) (label : String) :
    finish root refused label loading worker =
      .ok (root, .error failure) { after with session := some next } := by
  have tried : caught loading worker = .ok (some abrupt) after := by rw [caught, failed]
  have linked : linkRoot root refused label (some abrupt) after =
      .ok (.error failure) { after with session := some next } := by
    rw [linkRoot, bind_of_ok (get_run after), here, Option.map_some, taken]
    rfl
  rw [finish, bind_of_ok tried, bind_of_ok linked]
  rfl

section Strings

variable {rules : Rules} (string : blueprint.origin = .anonymous) (fresh : host.session = { rules })

include string fresh

/-- A build from a string leaves its session as it was, but for refused imports, and reads no file. The
code of the module that is built is in no file. -/
theorem buildModule_secludes (globals : Globals) :
    Session.OnlyRefuses { rules, isBound := true } (blueprint.buildModule globals host).2.session ∧
      (blueprint.buildModule globals host).2.store = host.store ∧
      ∀ module, (blueprint.buildModule globals host).1 = .ok module → module.world.IsAnonymous := by
  have bound := blueprint.isBound_buildModule globals host
  have binds : host.session.bind = .ok { rules, isBound := true } := by rw [fresh]; rfl
  have origin : blueprint.rootOrigin host.directory = .anonymous := by rw [rootOrigin, string]
  rcases blueprint.buildModule_cases globals host with ⟨error, failed⟩ | ⟨session, here, cases⟩
  · rw [failed, fresh] at bound
    contradiction
  obtain rfl := Except.ok.inj (here.symm.trans binds)
  rcases cases with ⟨error, failed⟩ | ⟨w, tree, made, read, built⟩
  · rw [failed]
    exact ⟨.refl _, rfl, fun module done => by contradiction⟩
  have begun := secluded_worker { host with session := { rules, isBound := true } } (.refl _)
    (isAnonymous_newWorld made)
  rw [origin] at built
  have ended := secludes_begin blueprint tree w.refusals.length blueprint.label _ begun
  rw [left_eq_final] at ended
  rw [built, conclude_host]
  refine ⟨(leave_of_secluded ended _).1, (leave_of_secluded ended _).2, fun module done => ?_⟩
  rw [world_of_conclude done]
  exact ended.world

/-- From the beginning of its rounds on, a build from a string refuses every import. -/
theorem deniesAll_start {promise : ObjectId} {begun : Worker σ}
    (started : blueprint.start globals host = some (promise, begun)) :
    begun.DeniesAll { rules, isBound := true } host.store := by
  obtain ⟨session, w, tree, here, made, _, entered⟩ := start_eq_some_iff.mp started
  have binds : host.session.bind = .ok { rules, isBound := true } := by rw [fresh]; rfl
  have origin : blueprint.rootOrigin host.directory = .anonymous := by rw [rootOrigin, string]
  obtain rfl := Except.ok.inj (here.symm.trans binds)
  rw [origin] at entered
  have enters : Obeys (Worker.StaysSecluded { rules, isBound := true } host.store)
      (blueprint.enterRoot .anonymous tree : Hosted σ ObjectId) := by
    refine .bind (secludes_lift (blueprint.stays_addRoot tree)) fun root =>
      .bind (fun worker h => ?_) fun _ => secludes_loadGraph root
    exact (congrArg (Worker.IsSecluded _ _) (enter_anonymous worker root)).mpr h
  have secluded := enters _ (secluded_worker { host with session := { rules, isBound := true } }
    (.refl _) (isAnonymous_newWorld made))
  rw [left_of_ok entered] at secluded
  exact secluded.deniesAll

/-- A string that requests something is not built: the failure names the first request. -/
theorem buildModule_of_request {w : World} {tree : ModuleTree} {specifier : Text.Units}
    {rest : List Text.Units} (made : blueprint.newWorld globals = .ok w)
    (read : Grammar.readModule blueprint.source.toList = .ok tree)
    (requests : tree.requests = specifier :: rest) :
    (blueprint.buildModule globals host).1 = .error (.importFromNonFile specifier.toString) := by
  let bound : Session Nat := { rules, isBound := true }
  have binds : host.session.bind = .ok bound := by rw [fresh]; rfl
  have origin : blueprint.rootOrigin host.directory = .anonymous := by rw [rootOrigin, string]
  obtain ⟨jobs, idle⟩ := calm_newWorld made
  let first : Worker σ := Host.worker { host with session := bound } w
  have added : Runs (blueprint.addRoot .anonymous tree) first.world fun root w' =>
      (root = w.modules.size ∧ ∃ module, first.world.Grows w' [module] ∧
        w'.HasNew module .anonymous tree.requests) ∧ w'.requests = [] := by
    refine (runs_addCode _ tree first.world).mono fun root w' made => ⟨made, ?_⟩
    obtain ⟨_, _, grown, _⟩ := made
    exact grown.requests.trans idle
  obtain ⟨root, w', done, rfl, module, grown, new⟩ := lift_of_runs added
  obtain ⟨known, here⟩ := grown.module_added
  rw [requests] at new
  have some : module.requests ≠ [] := by
    rw [new.requests]
    exact List.cons_ne_nil _ _
  let entered : Worker σ := { first with world := w' }
  have idle' : entered.world.requests = [] := grown.requests.trans idle
  have secluded : entered.IsSecluded bound host.store := by
    have still := secludes_lift (blueprint.stays_addRoot tree) first
      (secluded_worker { host with session := bound } (.refl bound) (isAnonymous_newWorld made))
    rwa [left_of_ok done] at still
  obtain ⟨w'', g, loaded, loading, only⟩ := Worker.loadGraph_of_requests idle'
    (grown.jobs.trans jobs) rfl known here some new.status new.loaded
  have secluded' := secludes_loadGraph first.world.modules.size entered secluded
  rw [left_of_ok loaded] at secluded'
  obtain ⟨abrupt, after, failed, still, ⟨next, others, noted, leads⟩, told⟩ :=
    Worker.settled_of_request only loading secluded' rfl rfl (congrArg _ new.requests) rfl rfl
  have taken : next.takeFailure (after.world.diagnostic abrupt).toList true =
      (Option.some (.importFromNonFile specifier.toString), next.clearFailures) := by
    refine Session.takeFailure_of_first leads (told.symm.imp_right fun exhausted e member => ?_)
    obtain ⟨_, same, failures, rfl, refused⟩ := still.session
    obtain rfl := Option.some.inj (noted.symm.trans same)
    obtain ⟨other, rfl⟩ := (refused e member).resolve_left List.not_mem_nil
    rw [exhausted]
    exact Error.not_told_of_exhausted after.world other
  rw [← origin] at done
  rw [buildModule_of_entered binds made read done (by rw [origin, enter_anonymous]; exact loaded),
    finish_of_failure failed noted taken]
  rfl

end Strings

end Blueprint

namespace BuiltModule

variable [Store.Source σ] {session : Session Nat} {store : σ} {worker : Worker σ}

omit [Store.Source σ] in
theorem secludes_failureOf (worker : Worker σ) (abrupt : Abrupt) (label : String) (refused : Nat) :
    worker.StaysSecluded session store (failureOf worker abrupt label refused).2 := by
  intro h
  unfold failureOf
  dsimp only
  split
  next => exact h
  next session here =>
    split
    next failure next taken =>
      have cleared := h.clearFailures
      rw [here, Option.map_some, ← Session.eq_of_takeFailure taken] at cleared
      exact cleared
    next => exact h

theorem secludes_evaluate (module : BuiltModule) :
    Obeys (Worker.StaysSecluded session store) (module.evaluate : Hosted σ PUnit) :=
  .bind (secludes_lift (obeys_evaluateModule module.root)) fun promise => secludes_settled promise

/-- A run leaves its host a secluded worker. -/
theorem run_secludes (module : BuiltModule) (host : Host σ)
    (secluded : (host.worker module.world).IsSecluded session host.store) :
    ∃ worker, worker.IsSecluded session host.store ∧
      (run.{0} module host).2.1.world = worker.world ∧ (run.{0} module host).2.2 = host.leave worker := by
  have evaluated := module.secludes_evaluate _ secluded
  rw [run_eq.{0}]
  dsimp only
  split
  next abrupt after failed =>
    rw [left_of_error failed] at evaluated
    exact ⟨_, secludes_failureOf after abrupt module.label _ evaluated, rfl, rfl⟩
  next value after done =>
    rw [left_of_ok done] at evaluated
    have cleared := evaluated.clearFailures
    have collects := obeys_collectExports (R := World.StaysAnonymous) module.root after.world
      cleared.world
    split
    next exports w collected =>
      rw [left_of_ok collected] at collects
      have ended := cleared.withWorld collects
      exact ⟨_, ended, rfl, rfl⟩
    next abrupt w failed =>
      rw [left_of_error failed] at collects
      have ended := cleared.withWorld collects
      exact ⟨_, ended, rfl, rfl⟩

/-- Whatever is done with a module, the worker that a run begins with stays secluded. -/
theorem use_secludes (state : BuiltModule × Host σ) (u : Use σ)
    (secluded : (state.2.worker state.1.world).IsSecluded session state.2.store) :
    ((use state u).2.worker (use state u).1.world).IsSecluded session (use state u).2.store := by
  obtain ⟨_, here, refuses⟩ := secluded.session
  obtain rfl := Option.some.inj here
  have anonymous : state.1.world.IsAnonymous := ⟨secluded.world.units, secluded.world.requests⟩
  cases u with
  | run =>
    obtain ⟨worker, ended, world, left⟩ := run_secludes state.1 state.2 secluded
    rw [use, world, left]
    exact Blueprint.secluded_worker _ (Blueprint.leave_of_secluded ended state.2).1 ended.world
  | json name =>
    have kept := (state.1.exportedJson?_keeps state.2 name).2
    have logs (w : World) (log : List Text.Units) : w.StaysAnonymous { w with log } :=
      fun h => ⟨h.units, h.requests⟩
    refine Blueprint.secluded_worker _ ?_ (exportedJson_leaves logs state.1 state.2 name anonymous)
    rw [use, kept]
    exact refuses
  | change change =>
    exact Blueprint.secluded_worker { change state.2 with session := state.2.session } refuses anonymous

theorem after_secludes (state : BuiltModule × Host σ) (uses : List (Use σ))
    (secluded : (state.2.worker state.1.world).IsSecluded session state.2.store) :
    ((after state uses).2.worker (after state uses).1.world).IsSecluded session
      (after state uses).2.store := by
  induction uses generalizing state with
  | nil => exact secluded
  | cons first uses ih => exact ih (use state first) (use_secludes state first secluded)

/-- A run that ends with the error of a refused import fails with a refused import that it tells of. -/
theorem run_of_refused {module : BuiltModule} {host : Host σ} (none : session.failures = [])
    {worker : Worker σ} (secluded : worker.IsSecluded session store) {value : Value} {site : Option Site}
    (failed : module.evaluate (host.worker module.world) = .error (.thrown value site) worker)
    {specifier : String} (told : worker.world.Says value (Error.importFromNonFile specifier).describe)
    {next : Session Nat} (here : worker.session = some next)
    (noted : .importFromNonFile specifier ∈ next.failures) :
    ∃ other, (run.{0} module host).1 = .error (.importFromNonFile other) ∧
      Text.contains (worker.world.diagnostic (.thrown value site)).toList
        (Error.importFromNonFile other).describe.toList := by
  obtain ⟨failure, taken, _⟩ :=
    Session.takeFailure_alike_iff noted (told.contains_diagnostic site) false
  obtain ⟨member, tells⟩ := Session.mem_of_takeFailure taken
  obtain ⟨_, same, failures, rfl, refused⟩ := secluded.session
  obtain rfl := Option.some.inj (here.symm.trans same)
  obtain ⟨other, rfl⟩ := (refused failure member).resolve_left (by rw [none]; exact List.not_mem_nil)
  refine ⟨other, ?_, tells⟩
  rw [run_eq.{0}, failed]
  dsimp only
  rw [failureOf, here]
  dsimp only
  rw [taken]

end BuiltModule

/-- A module that is built from a string in a session that is new imports nothing, whatever the rules and
the files are. Every import that is asked for while it is built, or in any run of it, is refused: it is
noted as a failure that names its specifier, and so does the error that code sees, be it caught or not.
A string that requests something statically is not built, for the first thing that it requests; a run
that ends with the error of a refused import fails with a refused import. Nothing but failures is noted
in the session, so that it has no records and no referenced paths at any time, and no file is read. -/
theorem strings_import_nothing [Store.Source σ] (blueprint : Blueprint) (globals : Globals)
    (host : Host σ) (rules : Rules) (string : blueprint.origin = .anonymous)
    (fresh : host.session = { rules }) :
    let built := blueprint.buildModule globals host
    let bound : Session Nat := { rules, isBound := true }
    (bound.OnlyRefuses built.2.session ∧ built.2.store = host.store) ∧
    (∀ promise begun, blueprint.start globals host = some (promise, begun) →
      begun.DeniesAll bound host.store) ∧
    (∀ w tree specifier rest, blueprint.newWorld globals = .ok w →
      Grammar.readModule blueprint.source.toList = .ok tree → tree.requests = specifier :: rest →
        built.1 = .error (.importFromNonFile specifier.toString)) ∧
    ∀ module, built.1 = .ok module → ∀ uses : List (BuiltModule.Use σ),
      let state := BuiltModule.after (module, built.2) uses
      let begun := state.2.worker state.1.world
      let ran := BuiltModule.run.{0} state.1 state.2
      (bound.OnlyRefuses state.2.session ∧ ran.2.2.store = state.2.store) ∧
      (∀ promise worker, Hosted.lift (evaluateModule state.1.root) begun = .ok promise worker →
        worker.DeniesAll bound state.2.store) ∧
      ∀ value site worker next specifier,
        state.1.evaluate begun = .error (.thrown value site) worker → worker.session = some next →
          .importFromNonFile specifier ∈ next.failures →
            worker.world.Says value (Error.importFromNonFile specifier).describe →
              ∃ other, ran.1 = .error (.importFromNonFile other) ∧
                Text.contains (worker.world.diagnostic (.thrown value site)).toList
                  (Error.importFromNonFile other).describe.toList := by
  intro built bound
  obtain ⟨refuses, unread, anonymous⟩ := Blueprint.buildModule_secludes string fresh globals
  refine ⟨⟨refuses, unread⟩, fun promise begun started => ?_,
    fun w tree specifier rest made read requests => ?_, fun module done uses => ?_⟩
  · exact Blueprint.deniesAll_start string fresh started
  · exact Blueprint.buildModule_of_request string fresh made read requests
  intro state begun ran
  have secluded : begun.IsSecluded bound state.2.store :=
    BuiltModule.after_secludes (module, built.2) uses
      (Blueprint.secluded_worker built.2 refuses (anonymous module done))
  refine ⟨⟨?_, ?_⟩, fun promise worker lifted => ?_,
    fun value site worker next specifier failed here noted told => ?_⟩
  · obtain ⟨next, here, refuses⟩ := secluded.session
    exact Option.some.inj here ▸ refuses
  · obtain ⟨worker, ended, _, left⟩ := BuiltModule.run_secludes state.1 state.2 secluded
    exact left ▸ (Blueprint.leave_of_secluded ended state.2).2
  · have still := secludes_lift (obeys_evaluateModule state.1.root) begun secluded
    rw [left_of_ok lifted] at still
    exact still.deniesAll
  · have ended : worker.IsSecluded bound state.2.store := by
      have still := state.1.secludes_evaluate begun secluded
      rwa [left_of_error failed] at still
    exact BuiltModule.run_of_refused rfl ended failed told here noted

/-- Two requests of a string: the first one is told of. -/
theorem string_with_requests :
    let blueprint : Blueprint :=
      { source := "import a from './a.txt'; import '/b.mjs'; export default a;", origin := .anonymous }
    let host : Host Store.Recording :=
      { session := { rules := [] }, store := { inner := { files := [("/a.txt", [97])] } } }
    (blueprint.buildModule [] host).1 = .error (.importFromNonFile "./a.txt") := by
  intro blueprint host
  have requests : (Grammar.readModule blueprint.source.toList).toOption.map (·.requests) =
      some [Text.Units.ofString "./a.txt", Text.Units.ofString "/b.mjs"] := by
    decide +kernel
  cases read : Grammar.readModule blueprint.source.toList with
  | error fault =>
    rw [read] at requests
    contradiction
  | ok tree =>
    rw [read] at requests
    have refused := (strings_import_nothing blueprint [] host [] rfl rfl).2.2.1 _ tree _ _ rfl read
      (Option.some.inj requests)
    rwa [Text.Units.toString_ofString] at refused

end Isolate
