import Isolate.Proofs.Blueprint.Law
import Mathlib.Data.List.Induction

/-!
# One build for a session, exports after a run

A linking session goes through one build. Whatever that build came to, every later one is refused and
touches nothing. The exports of what was built can be read from the first run that succeeds on, and a
build or a run that succeeds leaves no failure of an import behind that something later could report.
-/

namespace Isolate

open Script

variable {σ : Type} [Store.Source σ]

def Session.StaysBound (session next : Session Nat) : Prop := session.isBound → next.isBound

instance : Session.IsLaw Session.StaysBound where
  refl _ := id
  trans _ _ _ earlier later := later ∘ earlier
  refer _ _ := id
  attempt _ _ := id
  accept session path kind record _ _ _ := by
    rw [Session.accept]
    split <;> exact id
  fail _ _ _ := id
  clearFailures _ := id

namespace Blueprint

open Hosted

variable {blueprint : Blueprint} {globals : Globals} {host : Host σ} {module : BuiltModule}

/-- With a bound session a build is refused, and nothing happens. -/
theorem buildModule_of_isBound (bound : host.session.isBound) :
    blueprint.buildModule globals host = (.error .linkerReused, host) := by
  rw [buildModule, Session.bind_of_isBound bound]

/-- Whatever a build comes to, its session is bound afterwards. -/
theorem isBound_buildModule (blueprint : Blueprint) (globals : Globals) (host : Host σ) :
    (blueprint.buildModule globals host).2.session.isBound := by
  by_cases before : host.session.isBound
  · rw [buildModule_of_isBound before]
    exact before
  have bound : host.session.bind = .ok { host.session with isBound := true } := if_neg before
  unfold buildModule
  rw [bound]
  dsimp only
  split
  next => rfl
  next w made =>
    split
    next => rfl
    next tree read =>
      let begun : Host σ := { host with session := { host.session with isBound := true } }
      change (conclude blueprint.label w.refusals.length begun
        (begin (blueprint.addRoot (blueprint.rootOrigin host.directory) tree)
          (blueprint.rootOrigin host.directory) w.refusals.length blueprint.label
          (begun.worker w))).2.session.isBound
      rw [conclude_host]
      have here : (begun.worker w).session = some begun.session := rfl
      rcases begin_leaves (S := Worker.Carries Session.StaysBound) here
          (blueprint.addRoot (blueprint.rootOrigin host.directory) tree)
          (blueprint.rootOrigin host.directory) w.refusals.length blueprint.label with
        ⟨_, kept, _⟩ | ⟨root, start, entered, _, carries, _⟩
      · rw [Host.leave, kept]
        rfl
      · obtain ⟨next, left, stays⟩ := carries _ entered
        rw [Host.leave, left]
        exact stays (by rw [Session.enter_isBound])

/-- Loading a root that ends well leaves no failure. -/
theorem failures_of_loadRoot {worker : Worker σ} {session : Session Nat} {root refused : Nat}
    {label : String} (here : worker.session = some session)
    (done : (loadRoot root refused label).value? worker = some (.ok ⟨⟩)) :
    ∃ next, ((loadRoot root refused label).final worker).session = some next ∧
      next.failures = [] := by
  have carried := obeys_caught (S := Worker.Carries Session.StaysBound)
    (.bind (obeys_loadGraph root) obeys_settled) worker session here
  cases ran : caught (loadGraph root >>= settled) worker with
  | error abrupt after =>
    have same : loadRoot root refused label worker = .error abrupt after := bind_of_error ran _
    rw [value?_of_error same] at done
    contradiction
  | ok result after =>
    rw [left_of_ok ran] at carried
    obtain ⟨next, left, _⟩ := carried
    have same : loadRoot root refused label worker = _ := bind_of_ok ran _
    rw [value?_congr same] at done
    rw [final_congr same]
    cases result with
    | some abrupt =>
      dsimp only at done
      rw [value?_congr (bind_of_ok (get_run after) _)] at done
      split at done <;> cases done
    | none =>
      let cleared : Worker σ :=
        { after with session := after.session.map fun session => session.clearFailures }
      have clears : (modifySession (·.clearFailures) : Hosted σ PUnit) after = .ok ⟨⟩ cleared := rfl
      have kept : ((lift (capture (linkModule root))).final cleared).session =
          some next.clearFailures := by
        rw [session_final_lift]
        exact congrArg (Option.map fun session : Session Nat => session.clearFailures) left
      refine ⟨next.clearFailures, ?_, rfl⟩
      dsimp only
      rw [final_congr (bind_of_ok clears _)]
      cases linked : lift (capture (linkModule root)) cleared with
      | error abrupt last =>
        rw [final_of_error linked] at kept
        rw [final_of_error (bind_of_error linked _)]
        exact kept
      | ok outcome last =>
        rw [final_of_ok linked] at kept
        rw [final_congr (bind_of_ok linked _)]
        cases outcome <;> exact kept

theorem failures_of_begin {worker : Worker σ} {session : Session Nat} {make : Action Nat}
    {origin : Origin} {root refused : Nat} {label : String}
    (done : (begin make origin refused label).value? worker = some (root, .ok ⟨⟩))
    (here : worker.session = some session) :
    ∃ next, ((begin make origin refused label).final worker).session = some next ∧
      next.failures = [] := by
  have kept := session_final_lift make worker
  cases made : lift make worker with
  | error abrupt after =>
    have stopped : begin make origin refused label worker = .error abrupt after :=
      bind_of_error made _
    rw [value?_of_error stopped] at done
    contradiction
  | ok id after =>
    rw [final_of_ok made, here] at kept
    have same := begin_of_made made kept origin refused label
    rw [value?_congr same, value?_bind_pure] at done
    obtain ⟨result, loaded, both⟩ := Option.map_eq_some_iff.mp done
    obtain ⟨rfl, rfl⟩ := Prod.mk.inj both
    rw [final_congr same, final_bind_pure]
    exact failures_of_loadRoot rfl loaded

omit [Store.Source σ] in
theorem exports_of_conclude {label : String} {refused : Nat}
    {result : EStateM.Result Abrupt (Worker σ) (Nat × Except Error PUnit)}
    (built : (conclude label refused host result).1 = .ok module) : module.exports = none := by
  cases result with
  | error abrupt worker => contradiction
  | ok value worker =>
    obtain ⟨root, error | _⟩ := value
    · contradiction
    · rw [← Except.ok.inj built]

/-- A module that was built has not run, and no failure is left of its build. -/
theorem fresh_of_built (built : (blueprint.buildModule globals host).1 = .ok module) :
    module.exports = none ∧ (blueprint.buildModule globals host).2.session.failures = [] := by
  rcases blueprint.buildModule_cases globals host with ⟨error, failed⟩ | ⟨session, _, cases⟩
  · rw [failed] at built
    contradiction
  rcases cases with ⟨error, failed⟩ | ⟨w, tree, _, _, ran⟩
  · rw [failed] at built
    contradiction
  rw [ran] at built ⊢
  obtain ⟨next, left, none⟩ := failures_of_begin (value?_of_conclude built) rfl
  refine ⟨exports_of_conclude built, ?_⟩
  rw [conclude_host, Host.leave, left]
  exact none

end Blueprint

namespace BuiltModule

variable {module : BuiltModule} {host : Host σ}

/-- A run that succeeds makes the exports available and leaves no failure. -/
theorem run_ok (ran : (run.{0} module host).1 = .ok ⟨⟩) :
    (run.{0} module host).2.1.exports.isSome ∧
      (run.{0} module host).2.2.session.failures = [] := by
  have carried := obeys_evaluate (S := Worker.Carries Session.StaysBound) module
    (host.worker module.world) host.session rfl
  cases done : module.evaluate (host.worker module.world) with
  | error abrupt after =>
    rw [run_eq, done] at ran
    contradiction
  | ok value after =>
    rw [left_of_ok done] at carried
    obtain ⟨next, left, _⟩ := carried
    rw [run_of_evaluated done] at ran ⊢
    dsimp only at ran ⊢
    split at ran
    next exports w collected =>
      refine ⟨rfl, ?_⟩
      rw [Host.leave, left]
      rfl
    next => contradiction

/-- A run that fails leaves what is available as it was. -/
theorem run_error {error : Error} (ran : (run.{0} module host).1 = .error error) :
    (run.{0} module host).2.1.exports = module.exports := by
  cases done : module.evaluate (host.worker module.world) with
  | error abrupt after =>
    rw [run_eq, done]
  | ok value after =>
    rw [run_of_evaluated done] at ran ⊢
    dsimp only at ran ⊢
    split at ran
    next => contradiction
    next => rfl

omit [Store.Source σ] in
theorem exportedJson?_keeps (module : BuiltModule) (host : Host σ) (name : String) :
    (module.exportedJson? host name).2.1.exports = module.exports ∧
      (module.exportedJson? host name).2.2.session = host.session := by
  unfold exportedJson?
  split
  · exact ⟨rfl, rfl⟩
  · exact ⟨rfl, rfl⟩
  · split
    · exact ⟨rfl, rfl⟩
    · dsimp only
      split
      · exact ⟨rfl, rfl⟩
      · split <;> exact ⟨rfl, rfl⟩

/-- How the exports of a module are read. -/
inductive Reading where
  | all
  | value (name : String)
  | text (name : String)
  | bytes (name : String)
  | wasm (name : String)
  | json (name : String)

def verdict {α : Type} (result : Except Error α) : Except Error Unit := result.map fun _ => ()

def read {σ : Type} (module : BuiltModule) (host : Host σ) :
    Reading → Except Error Unit × BuiltModule × Host σ
  | .all => (verdict module.exported, module, host)
  | .value name => (verdict (module.export? name), module, host)
  | .text name => (verdict (module.exportedText? name), module, host)
  | .bytes name => (verdict (module.exportedBytes? name), module, host)
  | .wasm name => (verdict (module.exportedWasm? name), module, host)
  | .json name => (verdict (module.exportedJson? host name).1, (module.exportedJson? host name).2)

omit [Store.Source σ] in
/-- A reading changes neither what is available nor the session. -/
theorem read_keeps (module : BuiltModule) (host : Host σ) (reading : Reading) :
    (module.read host reading).2.1.exports = module.exports ∧
      (module.read host reading).2.2.session = host.session := by
  cases reading with
  | all | value | text | bytes | wasm => exact ⟨rfl, rfl⟩
  | json name => exact module.exportedJson?_keeps host name

omit [Store.Source σ] in
/-- The exports can be read exactly if they are available. -/
theorem read_unavailable_iff (module : BuiltModule) (host : Host σ) (reading : Reading) :
    (module.read host reading).1 = .error .exportsUnavailable ↔ module.exports = none := by
  cases known : module.exports with
  | none =>
    have closed : module.exported = .error .exportsUnavailable := by rw [exported, known]
    have found (name : String) : module.export? name = .error .exportsUnavailable := by
      rw [export?, closed]
      rfl
    refine iff_of_true ?_ rfl
    cases reading with
    | all => rw [read, closed]; rfl
    | value name => rw [read, found]; rfl
    | text name => rw [read, exportedText?, project, found]; rfl
    | bytes name => rw [read, exportedBytes?, project, found]; rfl
    | wasm name => rw [read, exportedWasm?, project, found]; rfl
    | json name => rw [read, exportedJson?, found]; rfl
  | some exports =>
    have opened : module.exported = .ok exports := by rw [exported, known]
    have found (name : String) : module.export? name = .ok (exports.lookup name) := by
      rw [export?, opened]
      rfl
    refine iff_of_false ?_ nofun
    cases reading with
    | all => rw [read, opened]; exact nofun
    | value name => rw [read, found]; exact nofun
    | text name => rw [read, exportedText?, project, found]; exact nofun
    | bytes name => rw [read, exportedBytes?, project, found]; exact nofun
    | wasm name => rw [read, exportedWasm?, project, found]; exact nofun
    | json name =>
      rw [read, exportedJson?, found]
      cases exports.lookup name with
      | none => exact nofun
      | some value =>
        dsimp only
        split
        · exact nofun
        · split
          · exact nofun
          · split <;> exact nofun

end BuiltModule

/-- A host with the module that was built with its session, if there is one. -/
structure Client (σ : Type) where
  host : Host σ
  module : Option BuiltModule := none

namespace Client

/-- What is called, through whatever handle on the session. -/
inductive Call (σ : Type) where
  | build (blueprint : Blueprint) (globals : Globals)
  | run
  | read (reading : BuiltModule.Reading)
  /-- Anything happens to the files and to the log. The session is not touched. -/
  | change (change : Host σ → Host σ)

/-- What a call returns, if there is something to call, and what it leaves. -/
def act (client : Client σ) : Call σ → Option (Except Error Unit) × Client σ
  | .build blueprint globals =>
    match blueprint.buildModule globals client.host with
    | (.ok module, host) => (some (.ok ()), { host, module := some module })
    | (.error e, host) => (some (.error e), { client with host })
  | .run =>
    match client.module with
    | none => (none, client)
    | some module =>
      let (result, module, host) := module.run client.host
      (some result, { host, module := some module })
  | .read reading =>
    match client.module with
    | none => (none, client)
    | some module =>
      let (result, module, host) := module.read client.host reading
      (some result, { host, module := some module })
  | .change change =>
    (none, { client with host := { change client.host with session := client.host.session } })

/-- The client after calls. -/
def after (client : Client σ) (calls : List (Call σ)) : Client σ :=
  calls.foldl (fun client call => (client.act call).2) client

/-- A build was called. -/
def Builds (calls : List (Call σ)) : Prop := ∃ blueprint globals, .build blueprint globals ∈ calls

/-- A run was called and succeeded. -/
def RunsWell (client : Client σ) (calls : List (Call σ)) : Prop :=
  ∃ before rest, calls = before ++ .run :: rest ∧
    ((client.after before).act .run).1 = some (.ok ())

variable {client : Client σ} {calls : List (Call σ)} {call : Call σ}

theorem after_concat : client.after (calls ++ [call]) = ((client.after calls).act call).2 :=
  List.foldl_append

theorem runsWell_concat (client : Client σ) (calls : List (Call σ)) (call : Call σ) :
    client.RunsWell (calls ++ [call]) ↔
      client.RunsWell calls ∨ call = .run ∧ ((client.after calls).act .run).1 = some (.ok ()) := by
  constructor
  · rintro ⟨before, rest, same, ran⟩
    rcases List.eq_nil_or_concat rest with rfl | ⟨rest, last, rfl⟩
    · obtain ⟨rfl, rfl⟩ := List.append_singleton_inj.mp same
      exact .inr ⟨rfl, ran⟩
    · rw [List.concat_eq_append, ← List.cons_append, ← List.append_assoc] at same
      exact .inl ⟨before, rest, (List.append_singleton_inj.mp same).1, ran⟩
  · rintro (⟨before, rest, rfl, ran⟩ | ⟨rfl, ran⟩)
    · exact ⟨before, rest ++ [call], by simp, ran⟩
    · exact ⟨calls, [], rfl, ran⟩

theorem act_build_of_isBound (bound : client.host.session.isBound) (blueprint : Blueprint)
    (globals : Globals) :
    client.act (.build blueprint globals) = (some (.error .linkerReused), client) := by
  rw [act, Blueprint.buildModule_of_isBound bound]

/-- After a build the session is bound, and the module that came of it has not run. -/
theorem act_build (client : Client σ) (blueprint : Blueprint) (globals : Globals) :
    (client.act (.build blueprint globals)).2.host.session.isBound ∧
      ((client.act (.build blueprint globals)).2.module = client.module ∨
        ∃ module, (client.act (.build blueprint globals)).2.module = some module ∧
          module.exports = none) := by
  have bound := blueprint.isBound_buildModule globals client.host
  rw [act]
  split
  next module host built =>
    rw [built] at bound
    have result : (blueprint.buildModule globals client.host).1 = .ok module := by rw [built]
    exact ⟨bound, .inr ⟨module, rfl, (Blueprint.fresh_of_built result).1⟩⟩
  next e host built =>
    rw [built] at bound
    exact ⟨bound, .inl rfl⟩

/-- A session that is bound stays bound whatever is called. -/
theorem isBound_act (bound : client.host.session.isBound) (call : Call σ) :
    (client.act call).2.host.session.isBound := by
  cases call with
  | build blueprint globals => exact (client.act_build blueprint globals).1
  | run =>
    rw [act]
    cases client.module with
    | none => exact bound
    | some module =>
      exact BuiltModule.use_carries (K := Session.StaysBound) (module, client.host) .run bound
  | read reading =>
    rw [act]
    cases client.module with
    | none => exact bound
    | some module =>
      change (module.read client.host reading).2.2.session.isBound
      rw [(module.read_keeps client.host reading).2]
      exact bound
  | change change => exact bound

/-- The exports that can be read. -/
def exports? (client : Client σ) : Option (List (String × Value)) := client.module.bind (·.exports)

/-- A run that fails changes nothing about what can be read. -/
theorem act_run_of_error {error : Error} (failed : (client.act .run).1 = some (.error error)) :
    (client.act .run).2.exports? = client.exports? := by
  rw [act] at failed ⊢
  cases here : client.module with
  | none =>
    rw [here] at failed
  | some module =>
    rw [here] at failed
    rw [exports?, exports?, here]
    exact BuiltModule.run_error (Option.some.inj failed)

theorem act_run_of_ok (ran : (client.act .run).1 = some (.ok ())) :
    (client.act .run).2.exports?.isSome ∧ (client.act .run).2.host.session.failures = [] := by
  rw [act] at ran ⊢
  cases here : client.module with
  | none =>
    rw [here] at ran
    contradiction
  | some module =>
    rw [here] at ran
    exact BuiltModule.run_ok (Option.some.inj ran)

theorem act_run_of_none (nothing : (client.act .run).1 = none) : (client.act .run).2 = client := by
  rw [act] at nothing ⊢
  cases here : client.module with
  | none => rfl
  | some module =>
    rw [here] at nothing
    contradiction

theorem act_read (client : Client σ) (reading : BuiltModule.Reading) :
    (client.act (.read reading)).2.exports? = client.exports? := by
  rw [act]
  cases here : client.module with
  | none => rfl
  | some module =>
    rw [exports?, exports?, here]
    exact (module.read_keeps client.host reading).1

/-- What ties a client to the calls that it has seen, if nothing was built before them. -/
structure Follows (client start : Client σ) (calls : List (Call σ)) : Prop where
  bound : Builds calls ∨ client.module.isSome → client.host.session.isBound
  available : client.exports?.isSome ↔ start.RunsWell calls

theorem Follows.concat {start : Client σ} (h : (start.after calls).Follows start calls)
    (call : Call σ) : (start.after (calls ++ [call])).Follows start (calls ++ [call]) := by
  rw [after_concat]
  generalize same : start.after calls = client at h
  have runs := runsWell_concat start calls call
  rw [same, ← h.available] at runs
  constructor
  case bound =>
    rintro (⟨blueprint, globals, member⟩ | some)
    · rcases List.mem_append.mp member with earlier | last
      · exact isBound_act (h.bound (.inl ⟨blueprint, globals, earlier⟩)) call
      · rw [List.mem_singleton] at last
        subst last
        exact (client.act_build blueprint globals).1
    · by_cases before : client.module.isSome
      · exact isBound_act (h.bound (.inr before)) call
      · -- Only a build brings a module.
        have none : client.module = none := by simpa using before
        cases call with
        | build blueprint globals => exact (client.act_build blueprint globals).1
        | run | read =>
          simp only [act, none] at some
          contradiction
        | change => exact absurd some before
  case available =>
    rw [runs]
    cases call with
    | build blueprint globals =>
      have idle : ¬(Call.build blueprint globals = (.run : Call σ) ∧
          (client.act .run).1 = some (.ok ())) := fun both => nomatch both.1
      rw [or_iff_left idle]
      by_cases bound : client.host.session.isBound
      · rw [act_build_of_isBound bound]
      · have none : client.module = none :=
          Option.not_isSome_iff_eq_none.mp fun other => bound (h.bound (.inr other))
        rcases (client.act_build blueprint globals).2 with kept | ⟨module, left, unread⟩
        · rw [exports?, exports?, kept]
        · simp [exports?, left, unread, none]
    | run =>
      cases ran : (client.act .run).1 with
      | none => simp [act_run_of_none ran]
      | some result =>
        cases result with
        | ok => simp [(act_run_of_ok ran).1]
        | error e => simp [act_run_of_error ran]
    | read reading => simp [act_read]
    | change change => simp [exports?, act]

theorem follows (host : Host σ) (calls : List (Call σ)) :
    (after { host } calls).Follows { host } calls := by
  induction calls using List.reverseRecOn with
  | nil =>
    refine ⟨fun called => ?_, iff_of_false nofun ?_⟩
    · rcases called with ⟨_, _, called⟩ | called <;> contradiction
    · rintro ⟨before, rest, same, _⟩
      exact absurd same (by simp)
  | append_singleton calls call ih => exact ih.concat call

/-- A build or a run that succeeds leaves no failure of an import that could be told of later. -/
theorem failures_of_success (succeeded : (client.act call).1 = some (.ok ()))
    (kind : call = .run ∨ ∃ blueprint globals, call = .build blueprint globals) :
    (client.act call).2.host.session.failures = [] := by
  rcases kind with rfl | ⟨blueprint, globals, rfl⟩
  · exact (act_run_of_ok succeeded).2
  · rw [act] at succeeded ⊢
    split at succeeded
    next module host built =>
      have result : (blueprint.buildModule globals client.host).1 = .ok module := by rw [built]
      have none := (Blueprint.fresh_of_built result).2
      rw [built] at none
      exact none
    next => exact absurd succeeded (by simp)

/-- Whatever is called with a linking session, through whatever handle: once a build was called, every
build is refused because the session was used, and a refused build leaves everything as it was, the
session and the files with what was read of them. From a module that was built the exports can be read
in every way once a run has succeeded, and in no way before; a run that fails changes nothing about
that. A build or a run that succeeds leaves no failure of an import, so none can be told of later. -/
theorem sessions_serve_one_build_and_exports_need_a_run (host : Host σ) (calls : List (Call σ)) :
    let client := after { host } calls
    (Builds calls → ∀ blueprint globals,
      client.act (.build blueprint globals) = (some (.error .linkerReused), client)) ∧
    (∀ module, client.module = some module → ∀ reading,
      ∃ result, (client.act (.read reading)).1 = some result ∧
        (result = .error .exportsUnavailable ↔ ¬RunsWell { host } calls)) ∧
    (∀ error, (client.act .run).1 = some (.error error) →
      (client.act .run).2.exports? = client.exports?) ∧
    ∀ call, (client.act call).1 = some (.ok ()) →
      (call = .run ∨ ∃ blueprint globals, call = .build blueprint globals) →
        (client.act call).2.host.session.failures = [] ∧
          ∀ text fallback, ((client.act call).2.host.session.takeFailure text fallback).1 = none := by
  intro client
  have follows : client.Follows { host } calls := follows host calls
  refine ⟨fun called blueprint globals => ?_, fun module here reading => ?_,
    fun error failed => act_run_of_error failed, fun call succeeded kind => ?_⟩
  · exact act_build_of_isBound (follows.bound (.inl called)) blueprint globals
  · refine ⟨(module.read client.host reading).1, by rw [act, here], ?_⟩
    rw [module.read_unavailable_iff, ← follows.available, exports?, here]
    exact Option.not_isSome_iff_eq_none.symm
  · have none := failures_of_success succeeded kind
    refine ⟨none, fun text fallback => ?_⟩
    cases fallback <;> simp [Session.takeFailure, none]

end Client

end Isolate
