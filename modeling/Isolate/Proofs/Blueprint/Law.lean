import Isolate.Blueprint.Script
import Isolate.Proofs.Blueprint.Life
import Isolate.Proofs.Worker.Verdicts

/-!
# Laws of what is built

The world of a script or of a module grows out of an empty one, when it is built and with every use of
it, by what a law of the worker allows. What a build and a run do to the session of their host is what any
worker does to its session.
-/

namespace Isolate

open Script

section NewWorlds

variable {R : World → World → Prop} [law : World.IsObjectLaw R]

namespace Globals

mutual

theorem obeys_toValue : (json : Json) → Obeys R (toValue json)
  | .null => .pure _
  | .bool _ => .pure _
  | .int _ => .pure _
  | .real _ => .pure _
  | .string _ => .pure _
  | .array items => by
    rw [toValue]
    exact .bind (obeys_itemValues items) fun _ => .bind (obeys_newArray _) fun _ => .pure _
  | .object members => by
    rw [toValue]
    exact .bind obeys_newObject fun id => .bind (obeys_defineMembers id members) fun _ => .pure _

theorem obeys_itemValues : (items : List Json) → Obeys R (itemValues items)
  | [] => .pure _
  | item :: rest => by
    rw [itemValues]
    exact .bind (obeys_toValue item) fun _ => .bind (obeys_itemValues rest) fun _ => .pure _

theorem obeys_defineMembers (id : ObjectId) :
    (members : List (String × Json)) → Obeys R (defineMembers id members)
  | [] => .pure _
  | (name, value) :: rest => by
    rw [defineMembers]
    exact .bind (obeys_toValue value) fun _ => .bind (obeys_defineMember _ _ _) fun _ =>
      obeys_defineMembers id rest

end

theorem obeys_define (name : Text.Units) (property : Property) :
    Obeys R (define name property) := by
  unfold define
  grind

theorem obeys_install (globals : Globals) : Obeys R globals.install := by
  refine .forM _ fun (name, entry) => ?_
  cases entry with
  | value json => exact .bind (obeys_toValue _) fun _ => obeys_define _ _
  | recorder length => exact .bind (obeys_newFunction _ _ _) fun _ => obeys_define _ _

end Globals

namespace Blueprint

/-- The world that a blueprint's code starts in, before the host's names are bound. -/
def emptyWorld (blueprint : Blueprint) : World :=
  .initial blueprint.limits blueprint.policy.allowCodeGeneration

theorem newWorld_obeys {blueprint : Blueprint} {globals : Globals} {w : World}
    (made : blueprint.newWorld globals = .ok w) : R blueprint.emptyWorld w := by
  have installed := globals.obeys_install (R := R) blueprint.emptyWorld
  unfold newWorld at made
  split at made
  next value after done =>
    have done : globals.install blueprint.emptyWorld = .ok value after := done
    rw [left_of_ok done, Except.ok.inj made] at installed
    exact installed
  next => contradiction

end Blueprint

end NewWorlds

/-- Nothing but objects is different. -/
def Script.World.IsFurnished (w w' : World) : Prop := w' = { w with objects := w'.objects }

instance : World.IsObjectLaw World.IsFurnished where
  refl _ := rfl
  trans _ _ _ first later := by
    rw [World.IsFurnished, first] at later
    exact later
  objects _ _ _ := rfl

section Exports

variable {R : World → World → Prop} [law : World.IsCodeLaw R]

namespace BuiltModule

theorem obeys_jsonText (value : Value) : Obeys R (jsonText value) := by
  have called := (obeys_invoke (R := R)).apply
  refine .bind (obeys_getMember _ _) fun json => ?_
  extract_lets write
  have writes (method : Value) : Obeys R (write method) := by
    refine .bind (obeys_isCallable _) fun _ => ?_
    grind
  clear_value write
  grind

/-- Reading an export as JSON obeys every law of code, if the log may be any. -/
theorem exportedJson_leaves {σ : Type}
    (logs : ∀ (w : World) (log : List Text.Units), R w { w with log }) (module : BuiltModule)
    (host : Host σ) (name : String) : R module.world (module.exportedJson? host name).2.1.world := by
  have logged (w : World) : R w { w with log := host.log, here := none, calls := [] } :=
    law.trans _ _ _ (logs w host.log) (law.place _ [] none w.running)
  have written (value : Value) := law.trans _ _ _ (logged module.world)
    (obeys_jsonText (R := R) value { module.world with log := host.log, here := none, calls := [] })
  unfold exportedJson?
  split
  · exact law.refl _
  · exact law.refl _
  next value found =>
    have wrote := written value
    split
    next abrupt w failed =>
      rw [left_of_error failed] at wrote
      exact wrote
    next text w done =>
      rw [left_of_ok done] at wrote
      dsimp only
      split
      · exact wrote
      · split <;> exact wrote

end BuiltModule

end Exports

variable {R : World → World → Prop} [law : World.IsWorkerLaw R]

namespace Blueprint

variable {σ : Type} [Store.Source σ]

theorem obeys_begin {S : Worker σ → Worker σ → Prop} [law : Worker.IsLaw S] {make : Action Nat}
    (lawful : Lawful make)
    (registers : ∀ (path : Path) (root : Nat),
      Obeys S (Hosted.modifySession (·.register path root) : Hosted σ PUnit))
    (origin : Origin) (refused : Nat) (label : String) :
    Obeys S (begin make origin refused label : Hosted σ (Nat × Except Error PUnit)) := by
  refine .bind (law.lift lawful) fun root => ?_
  cases origin with
  | anonymous => exact .bind (obeys_loadRoot _ _ _) fun _ => .pure _
  | file path =>
    exact .bind (registers path root) fun _ => .bind (obeys_loadRoot _ _ _) fun _ => .pure _

theorem lawful_addRoot (blueprint : Blueprint) (origin : Origin) (tree : ModuleTree) :
    Lawful (blueprint.addRoot origin tree) := fun _ law =>
  .bind (obeys_addUnit _) fun _ => law.addModule _ _

/-- The world of a module that was built grew out of an empty one. -/
theorem buildModule_obeys {blueprint : Blueprint} {globals : Globals} {host : Host σ}
    {module : BuiltModule} (built : (blueprint.buildModule globals host).1 = .ok module) :
    R blueprint.emptyWorld module.world := by
  rcases blueprint.buildModule_cases globals host with ⟨error, failed⟩ | ⟨session, bound, cases⟩
  · rw [failed] at built
    contradiction
  rcases cases with ⟨error, failed⟩ | ⟨w, tree, made, read, begun⟩
  · rw [failed] at built
    contradiction
  have loaded := obeys_begin (S := Worker.Related R)
    (blueprint.lawful_addRoot (blueprint.rootOrigin host.directory) tree)
    (fun _ _ => Hosted.related_outside fun _ => rfl) (blueprint.rootOrigin host.directory)
    w.refusals.length blueprint.label (({ host with session } : Host σ).worker w)
  rw [begun] at built
  have logged : R w { w with log := host.log } := law.log w host.log
  refine law.trans _ _ _ (newWorld_obeys made) (law.trans _ _ _ logged ?_)
  unfold conclude at built
  split at built
  next root result worker done =>
    rw [left_of_ok done] at loaded
    rw [← Except.ok.inj built]
    exact loaded
  next => contradiction
  next => contradiction

end Blueprint

namespace BuiltModule

variable {σ : Type} [Store.Source σ]

omit law [Store.Source σ] in
@[simp] theorem world_failureOf (worker : Worker σ) (abrupt : Abrupt) (label : String) (refused : Nat) :
    (failureOf worker abrupt label refused).2.world = worker.world := by
  unfold failureOf
  dsimp only
  split
  · rfl
  · split <;> rfl

omit law in
/-- A run fails with what escapes from the evaluation, or with exports that cannot be read. -/
theorem run_cases (module : BuiltModule) (host : Host σ) :
    (∃ abrupt worker, module.evaluate (host.worker module.world) = .error abrupt worker ∧
        (run.{0} module host).1 =
          .error (failureOf worker abrupt module.label module.world.refusals.length).1 ∧
        (run.{0} module host).2.1.world = worker.world) ∨
      ∃ worker, module.evaluate (host.worker module.world) = .ok ⟨⟩ worker ∧
        (run.{0} module host).2.1.world = left (collectExports module.root) worker.world ∧
        ((run.{0} module host).1 = .ok ⟨⟩ ∨
          ∃ message, (run.{0} module host).1 = .error (.engine message)) := by
  have same := run_eq.{0} module host
  cases evaluated : module.evaluate (host.worker module.world) with
  | error abrupt worker =>
    rw [evaluated] at same
    rw [same]
    exact .inl ⟨abrupt, worker, rfl, rfl, world_failureOf ..⟩
  | ok value worker =>
    rw [evaluated] at same
    dsimp only at same
    refine .inr ⟨worker, rfl, ?_⟩
    cases collected : collectExports module.root worker.world with
    | ok exports w =>
      rw [collected] at same
      rw [same]
      exact ⟨(left_of_ok collected).symm, .inl rfl⟩
    | error abrupt w =>
      rw [collected] at same
      rw [same]
      exact ⟨(left_of_error collected).symm, .inr ⟨_, rfl⟩⟩

/-- A run obeys every law. -/
theorem run_obeys (module : BuiltModule) (host : Host σ) :
    R module.world (run.{0} module host).2.1.world := by
  have logged : R module.world (host.worker module.world).world := law.log module.world host.log
  have ran := law.trans _ _ _ logged (module.obeys_evaluate (S := Worker.Related R)
    (host.worker module.world))
  rcases module.run_cases host with ⟨abrupt, worker, failed, _, left⟩ | ⟨worker, done, left, _⟩
  · rw [left_of_error failed] at ran
    exact left ▸ ran
  · rw [left_of_ok done] at ran
    rw [left]
    exact law.trans _ _ _ ran (obeys_collectExports module.root worker.world)

omit [Store.Source σ] in
/-- Reading an export as JSON obeys every law. -/
theorem exportedJson_obeys (module : BuiltModule) (host : Host σ) (name : String) :
    R module.world (module.exportedJson? host name).2.1.world :=
  exportedJson_leaves law.log module host name

/-- What may be done with a module that was built. -/
inductive Use (σ : Type) where
  | run
  | json (name : String)
  /-- Anything happens to the files and to the log. The session is not touched. -/
  | change (change : Host σ → Host σ)

def use (state : BuiltModule × Host σ) : Use σ → BuiltModule × Host σ
  | .run => (run.{0} state.1 state.2).2
  | .json name => (state.1.exportedJson? state.2 name).2
  | .change change => (state.1, { change state.2 with session := state.2.session })

/-- A module and its host after some uses. -/
def after (state : BuiltModule × Host σ) (uses : List (Use σ)) : BuiltModule × Host σ :=
  uses.foldl use state

theorem after_obeys (state : BuiltModule × Host σ) (uses : List (Use σ)) :
    R state.1.world (after state uses).1.world := by
  induction uses generalizing state with
  | nil => exact law.refl _
  | cons first uses ih =>
    refine law.trans _ _ _ ?_ (ih (use state first))
    cases first with
    | run => exact run_obeys state.1 state.2
    | json name => exact exportedJson_obeys state.1 state.2 name
    | change change => exact law.refl _

end BuiltModule

namespace BuiltScript

/-- The worker that runs a script. -/
def worker (script : BuiltScript) : Worker Store.Recording :=
  { world := script.world, session := none, store := ⟨⟨[]⟩, []⟩ }

/-- A script after some runs. -/
def after (script : BuiltScript) : Nat → BuiltScript
  | 0 => script
  | n + 1 => (script.after n).run.2

theorem obeys_program (script : BuiltScript) : Obeys (Worker.Related R) script.program :=
  .bind (Hosted.related_lift (obeys_runProgram _)) fun _ => .bind Hosted.obeys_drain fun _ => .pure _

/-- A run fails with what escapes from the program. -/
theorem run_cases (script : BuiltScript) :
    (∃ abrupt worker, script.program script.worker = .error abrupt worker ∧
        script.run.1 = .error (.ofFailure worker.world abrupt script.label script.world.refusals.length) ∧
        script.run.2.world = { worker.world with calls := [], here := none }) ∨
      ∃ value worker, script.program script.worker = .ok value worker ∧ script.run.1 = .ok value ∧
        script.run.2.world = worker.world := by
  cases ran : script.program script.worker with
  | ok value worker =>
    rw [BuiltScript.worker] at ran
    rw [run, ran]
    exact .inr ⟨value, worker, rfl, rfl, rfl⟩
  | error abrupt worker =>
    rw [BuiltScript.worker] at ran
    rw [run, ran]
    exact .inl ⟨abrupt, worker, rfl, rfl, rfl⟩

theorem run_obeys (script : BuiltScript) : R script.world script.run.2.world := by
  have ran := obeys_program (R := R) script script.worker
  rcases script.run_cases with ⟨abrupt, worker, failed, _, left⟩ | ⟨value, worker, done, _, left⟩
  · rw [left_of_error failed] at ran
    rw [left]
    exact law.trans _ _ _ ran (law.place _ _ _ _)
  · rw [left_of_ok done] at ran
    exact left ▸ ran

theorem after_obeys (script : BuiltScript) (n : Nat) : R script.world (script.after n).world := by
  induction n with
  | zero => exact law.refl _
  | succ n ih => exact law.trans _ _ _ ih (run_obeys _)

end BuiltScript

/-- The world of a script that was built grew out of an empty one. -/
theorem Blueprint.buildScript_obeys {blueprint : Blueprint} {globals : Globals} {script : BuiltScript}
    (built : blueprint.buildScript globals = .ok script) : R blueprint.emptyWorld script.world := by
  unfold buildScript at built
  split at built
  next => contradiction
  next w made =>
    dsimp only at built
    split at built
    next => contradiction
    next tree read =>
      rw [← Except.ok.inj built]
      exact law.trans _ _ _ (newWorld_obeys made) (law.unit w _)

section Sessions

variable {σ : Type} [Store.Source σ] {K : Session Nat → Session Nat → Prop} [order : Session.IsLaw K]

/-- From the entry of the root on a build obeys every law of sessions. -/
theorem Blueprint.buildModule_carries {blueprint : Blueprint} {globals : Globals} {host : Host σ}
    {module : BuiltModule} (built : (blueprint.buildModule globals host).1 = .ok module) :
    ∃ session, host.session.bind = .ok session ∧
      K (session.enter (blueprint.rootOrigin host.directory) module.root)
        (blueprint.buildModule globals host).2.session := by
  rcases blueprint.buildModule_leaves (S := Worker.Carries K) globals host with ⟨failed, _⟩ |
    ⟨session, root, start, worker, bound, entered, _, carries, left, same⟩
  · exact absurd built (failed module)
  · obtain ⟨next, here, obeyed⟩ := carries _ entered
    rw [left, Host.leave, here, same module built]
    exact ⟨session, bound, obeyed⟩

namespace BuiltModule

/-- Every use of a module obeys every law of sessions. -/
theorem use_carries (state : BuiltModule × Host σ) (u : Use σ) :
    K state.2.session (use state u).2.session := by
  cases u with
  | run =>
    obtain ⟨worker, carries, left⟩ := state.1.run_leaves (S := Worker.Carries K) state.2
    obtain ⟨next, here, obeyed⟩ := carries state.2.session rfl
    rw [use, left, Host.leave, here]
    exact obeyed
  | json name =>
    have same : (state.1.exportedJson? state.2 name).2.2.session = state.2.session := by
      unfold exportedJson?
      split
      · rfl
      · rfl
      · split
        · rfl
        · dsimp only
          split
          · rfl
          · split <;> rfl
    rw [use, same]
    exact order.refl _
  | change change => exact order.refl _

theorem after_carries (state : BuiltModule × Host σ) (uses : List (Use σ)) :
    K state.2.session (after state uses).2.session := by
  induction uses generalizing state with
  | nil => exact order.refl _
  | cons first uses ih => exact order.trans _ _ _ (use_carries state first) (ih _)

end BuiltModule

/-- From the entry of the root on, the session of a module that is built and used obeys every law. -/
theorem Blueprint.session_carries {blueprint : Blueprint} {globals : Globals} {host : Host σ}
    {module : BuiltModule} (built : (blueprint.buildModule globals host).1 = .ok module)
    (uses : List (BuiltModule.Use σ)) :
    ∃ session, host.session.bind = .ok session ∧
      K (session.enter (blueprint.rootOrigin host.directory) module.root)
        (BuiltModule.after (module, (blueprint.buildModule globals host).2) uses).2.session := by
  obtain ⟨session, bound, obeyed⟩ := buildModule_carries (K := K) built
  exact ⟨session, bound, order.trans _ _ _ obeyed (BuiltModule.after_carries _ uses)⟩

/-- The session of a module that is built and used goes on with the rules of its host. -/
theorem Blueprint.session_continues {blueprint : Blueprint} {globals : Globals} {host : Host σ}
    {module : BuiltModule} (built : (blueprint.buildModule globals host).1 = .ok module)
    (uses : List (BuiltModule.Use σ)) :
    host.session.Continues
      (BuiltModule.after (module, (blueprint.buildModule globals host).2) uses).2.session := by
  obtain ⟨session, bound, continues⟩ := session_carries (K := Session.Continues) built uses
  refine IsTrans.trans _ _ _ ?_ continues
  rw [Session.eq_of_bind bound]
  cases blueprint.rootOrigin host.directory <;> exact ⟨rfl, id, id⟩

end Sessions

end Isolate
