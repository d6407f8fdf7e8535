import Isolate.Proofs.Worker.Assembly
import Isolate.Proofs.Worker.Slots

/-!
# What an import comes to while graphs are loaded

While nothing is left to do besides loads, and every CommonJS file is the body of a function, an import
never ends abruptly and queues nothing. It fails, or it comes to a record that is known, or to a new
module for a file that was read.
-/

namespace Isolate

open Script

namespace Store

variable {σ : Type} [Source σ]

/-- Whatever was read from a store before, reading it gives certain contents. -/
def Holds (store : σ) (content : Path → Except Error Bytes) : Prop :=
  ∀ (paths : List Path) (p : Path),
    (Source.read (paths.foldl (fun store q => (Source.read store q).2) store) p).1 = content p

variable {store : σ} {content : Path → Except Error Bytes}

theorem Holds.read_fst (h : Holds store content) (p : Path) :
    (Source.read store p).1 = content p := h [] p

theorem Holds.read_snd (h : Holds store content) (p : Path) :
    Holds (Source.read store p).2 content := fun paths => h (p :: paths)

/-- Counting reads changes no file. -/
theorem holds_recording (store : Recording) : Holds store store.inner.read := by
  intro paths p
  induction paths generalizing store with
  | nil => rfl
  | cons q paths ih => exact ih (Source.read store q).2

end Store

namespace Worker

variable {σ : Type} {worker middle after : Worker σ} {added added' : List Module}

/-- Nothing has changed around the session and the store but for some modules that were added. -/
structure Keeps (worker after : Worker σ) (added : List Module) : Prop where
  world : worker.world.Grows after.world added
  adds (base : World) : base.Adds worker.world after.world
  queue : after.queue = worker.queue
  slots : after.slots = worker.slots
  free : after.free = worker.free
  graphs : after.graphs = worker.graphs

/-- A change of the session and of the store only. -/
theorem Keeps.refl (worker : Worker σ) (session : Option (Session Nat)) (store : σ) :
    worker.Keeps { worker with session, store } [] :=
  ⟨.refl _, fun base => Std.Refl.refl (r := base.Adds) _, rfl, rfl, rfl, rfl⟩

theorem Keeps.trans (first : worker.Keeps middle added) (later : middle.Keeps after added') :
    worker.Keeps after (added ++ added') :=
  ⟨first.world.trans later.world,
    fun base => IsTrans.trans (r := base.Adds) _ _ _ (first.adds base) (later.adds base),
    later.queue.trans first.queue, later.slots.trans first.slots,
    later.free.trans first.free, later.graphs.trans first.graphs⟩

end Worker

namespace Hosted

variable {σ α : Type} {worker : Worker σ}

/-- An action on the world that asks for no import queues nothing. -/
theorem lift_of_runs {action : Action α} {Q : α → World → Prop}
    (runs : Runs action worker.world fun value w' => Q value w' ∧ w'.requests = []) :
    ∃ value w', lift action worker = .ok value { worker with world := w' } ∧ Q value w' := by
  obtain ⟨value, w', done, holds, none⟩ := runs
  refine ⟨value, w', ?_, holds⟩
  rw [lift, done]
  dsimp only
  rw [none, List.map_nil, List.append_nil, ← none]

theorem exists_of_lift {action : Action α} {value : α} {after : Worker σ}
    (done : lift action worker = .ok value after) :
    ∃ w', action worker.world = .ok value w' ∧ after.world = { w' with requests := [] } := by
  rw [lift] at done
  split at done
  next w' ran =>
    obtain ⟨rfl, rfl⟩ := EStateM.Result.ok.inj done
    exact ⟨w', ran, rfl⟩
  next => contradiction

variable {session : Session Nat} {path : Path} {kind : Kind.Supported}

/-- A load fails, or accepts a new module, and leaves all else as it is. -/
theorem load_outcome (here : worker.session = some session) (idle : worker.world.requests = [])
    {bytes : Bytes}
    (body : kind = .commonJS → ∀ text, Text.Utf8.decode bytes = .ok text → Wrapper.IsBody text) :
    ∃ result after, (lift (Loader.load path kind bytes) >>= finishLoad path kind) worker =
        .ok result after ∧ after.store = worker.store ∧
      ((∃ error, result = .error error ∧ worker.Keeps after [] ∧
          after.session = some (session.endLoad path)) ∨
        ∃ module, result = .ok worker.world.modules.size ∧ worker.Keeps after [module] ∧
          after.world.HasNew module (.file path) (kind.requests bytes) ∧
          Loader.load path kind bytes worker.world = .ok (.ok worker.world.modules.size) after.world ∧
          after.session =
            some ((session.endLoad path).accept path kind worker.world.modules.size)) := by
  obtain ⟨result, w', loaded, ⟨loads, adds⟩, made⟩ := lift_of_runs
    (((Loader.runs_load path kind body worker.world).adds fun _ => Loader.adds_load path kind body).done.mono
      fun result w' loads => And.intro loads (loads.1.1.elim (fun ⟨_, _, _, calm⟩ =>
        calm.requests.trans idle) fun ⟨_, _, _, grown, _⟩ => grown.requests.trans idle))
  have here' : ({ worker with world := w' } : Worker σ).session = some session := here
  rw [bind_of_ok loaded]
  rcases loads with ⟨error, _, rfl, calm⟩ | ⟨_, module, rfl, grown, new⟩
  · exact ⟨_, _, finishLoad_error here' path kind error, rfl,
      .inl ⟨error, rfl, ⟨calm, adds, rfl, rfl, rfl, rfl⟩, rfl⟩⟩
  · exact ⟨_, _, finishLoad_ok here' path kind _, rfl,
      .inr ⟨module, rfl, ⟨grown, adds, rfl, rfl, rfl, rfl⟩, new, made, rfl⟩⟩

/-- Answering with an error leaves all as it is but for the failure that is noted. -/
theorem answer_outcome (here : worker.session = some session) (idle : worker.world.requests = [])
    (error : Error) :
    ∃ reason after, answer (.error error) worker = .ok (.error reason) after ∧
      worker.Keeps after [] ∧ after.store = worker.store ∧
      after.session = some (session.fail error) := by
  rw [answer_eq here]
  generalize start : ({ worker with session := some (session.fail error) } : Worker σ) = failed
  have same : failed.world = worker.world := by rw [← start]
  obtain ⟨reason, w', made, calm, adds⟩ := lift_of_runs
    (((quiet_newError .error error.describe failed.world).adds fun _ => adds_newError _ _ _).mono
      fun _ _ calm => And.intro calm (calm.1.requests.trans (same ▸ idle)))
  rw [bind_of_ok made]
  subst start
  exact ⟨reason, _, rfl, ⟨calm, adds, rfl, rfl, rfl, rfl⟩, rfl, rfl⟩

end Hosted

section Imports

variable {σ : Type} [Store.Source σ]

/-- Every CommonJS file among some contents is the body of a function. -/
def Wrapper.AreBodies (rules : Rules) (content : Path → Except Store.Error Bytes) : Prop :=
  ∀ path bytes text, rules.classify path = some (.supported .commonJS) → content path = .ok bytes →
    Text.Utf8.decode bytes = .ok text → Wrapper.IsBody text

/-- If there is a CommonJS file at a path it is the body of a function. -/
def Wrapper.IsBodyAt (rules : Rules) (content : Path → Except Store.Error Bytes) (path : Path) : Prop :=
  ∀ bytes text, rules.classify path = some (.supported .commonJS) → content path = .ok bytes →
    Text.Utf8.decode bytes = .ok text → Wrapper.IsBody text

omit [Store.Source σ] in
/-- The CommonJS files among those that were read are bodies of functions. -/
def Store.Watched.HasBodies (store : Store.Watched σ) (rules : Rules)
    (content : Path → Except Store.Error Bytes) : Prop :=
  ∀ path ∈ store.reads.map Prod.fst, Wrapper.IsBodyAt rules content path

omit [Store.Source σ] in
theorem Store.Watched.HasBodies.mono {earlier later : Store.Watched σ} {rules : Rules}
    {content : Path → Except Store.Error Bytes} (h : later.HasBodies rules content)
    (reads : earlier.reads <+: later.reads) : earlier.HasBodies rules content := fun path member =>
  h path ((reads.sublist.map Prod.fst).mem member)

/-- What an import comes to: an error, a known record, or the record of a new module. -/
inductive Worker.Imports (worker : Worker (Store.Watched σ)) (session : Session Nat)
    (content : Path → Except Store.Error Bytes) (referrer : Origin) (specifier : String) :
    Except Value Nat → Worker (Store.Watched σ) → Prop where
  | failed {reason : Value} {after : Worker (Store.Watched σ)} (keeps : worker.Keeps after [])
      (next : Session Nat) (left : after.session = some next) (rules : next.rules = session.rules)
      (holds : Store.Holds after.store.store content) (records : next.records = session.records) :
      Imports worker session content referrer specifier (.error reason) after
  | reused {path : Path} {record : Nat} (target : referrer.target specifier = some path)
      (known : session.record? path = some record) :
      Imports worker session content referrer specifier (.ok record)
        { worker with session := some (session.refer path) }
  | loaded {path : Path} {kind : Kind.Supported} {bytes : Bytes} {module : Script.Module}
      {after : Worker (Store.Watched σ)} (target : referrer.target specifier = some path)
      (unknown : session.record? path = none)
      (classified : session.rules.classify path = some (.supported kind))
      (read : content path = .ok bytes) (keeps : worker.Keeps after [module])
      (new : after.world.HasNew module (.file path) (kind.requests bytes))
      (made : Loader.load path kind bytes worker.world = .ok (.ok worker.world.modules.size) after.world)
      (left : after.session = some ((((session.refer path).beginLoad path).endLoad path).accept path
        kind worker.world.modules.size))
      (holds : Store.Holds after.store.store content)
      (reads : after.store.reads = worker.store.reads ++ [(path, true)]) :
      Imports worker session content referrer specifier (.ok worker.world.modules.size) after

def Worker.reading (worker : Worker (Store.Watched σ)) (session : Session Nat) (path : Path) :
    Worker (Store.Watched σ) :=
  { worker with
    session := some (session.beginLoad path)
    store := (Store.Source.read worker.store path).2 }

theorem Worker.reads_reading {worker : Worker (Store.Watched σ)} {session : Session Nat}
    {content : Path → Except Store.Error Bytes} {path : Path} {bytes : Bytes}
    (holds : Store.Holds worker.store.store content) (read : content path = .ok bytes) :
    (worker.reading session path).store.reads = worker.store.reads ++ [(path, true)] := by
  rw [reading, Store.Watched.read_reads, holds.read_fst path, read]
  rfl

namespace Hosted

variable {worker : Worker (Store.Watched σ)} {session planned : Session Nat}
  {content : Path → Except Store.Error Bytes} {referrer : Origin} {specifier : Text.Units}
  {path : Path} {kind : Kind.Supported}

theorem resolve_of_missing {e : Store.Error} (holds : Store.Holds worker.store.store content)
    (plan : session.plan referrer specifier.toString = (.load path kind, planned))
    (read : content path = .error e) :
    resolve session referrer specifier worker =
      finishLoad path kind (.error (.read path e)) (worker.reading planned path) := by
  rw [resolve_eq plan, follow, loadPath_eq, Store.Watched.read_fst, holds.read_fst path, read]
  rfl

theorem resolve_of_read {bytes : Bytes} (holds : Store.Holds worker.store.store content)
    (plan : session.plan referrer specifier.toString = (.load path kind, planned))
    (read : content path = .ok bytes) :
    resolve session referrer specifier worker =
      (lift (Loader.load path kind bytes) >>= finishLoad path kind)
        (worker.reading planned path) := by
  rw [resolve_eq plan, follow, loadPath_eq, Store.Watched.read_fst, holds.read_fst path, read]
  rfl

/-- An import that is refused notes the failure and leaves all else as it is. -/
theorem importModule_refused {middle : Worker (Store.Watched σ)} {error : Error}
    (here : worker.session = some session) (idle : worker.world.requests = [])
    (resolved : resolve session referrer specifier worker = .ok (.error error) middle)
    (keeps : worker.Keeps middle []) (left : middle.session = some planned)
    (rules : planned.rules = session.rules) (holds : Store.Holds middle.store.store content)
    (records : planned.records = session.records) :
    ∃ result after, importModule referrer specifier worker = .ok result after ∧
      worker.Imports session content referrer specifier.toString result after := by
  obtain ⟨reason, after, answered, keeps', store, next⟩ :=
    answer_outcome left (keeps.world.requests.trans idle) error
  refine ⟨.error reason, after, by rw [importModule_eq here, bind_of_ok resolved, answered],
    .failed (keeps.trans keeps') _ next rules (by rw [store]; exact holds) records⟩

/-- An import of a path that is to be loaded reads it, and is refused or adds the module. -/
theorem importModule_of_load (here : worker.session = some session)
    (idle : worker.world.requests = []) (holds : Store.Holds worker.store.store content)
    (body : Wrapper.IsBodyAt session.rules content path)
    (target : referrer.target specifier.toString = some path)
    (unknown : session.record? path = none)
    (classified : session.rules.classify path = some (.supported kind))
    (plan : session.plan referrer specifier.toString = (.load path kind, session.refer path)) :
    ∃ result after, importModule referrer specifier worker = .ok result after ∧
      worker.Imports session content referrer specifier.toString result after := by
  let begun := worker.reading (session.refer path) path
  have began : begun.session = some ((session.refer path).beginLoad path) := rfl
  have keeps : worker.Keeps begun [] := .refl _ _ _
  have holds' : Store.Holds begun.store.store content := holds.read_snd path
  cases read : content path with
  | error e =>
    exact importModule_refused here idle
      ((resolve_of_missing holds plan read).trans (finishLoad_error began path kind _))
      (.refl _ _ _) rfl rfl holds' rfl
  | ok bytes =>
    have resolved := resolve_of_read holds plan read
    obtain ⟨result, after, loaded, store, cases⟩ := load_outcome began idle
      fun same text decoded => body bytes text (same ▸ classified) read decoded
    have holds'' : Store.Holds after.store.store content := by rw [store]; exact holds'
    rcases cases with ⟨error, rfl, keeps', left⟩ | ⟨module, rfl, keeps', new, made, left⟩
    · exact importModule_refused here idle (resolved.trans loaded) (keeps.trans keeps') left rfl
        holds'' rfl
    · refine ⟨_, _, importModule_of_ok here (resolved.trans loaded), ?_⟩
      refine .loaded target unknown classified read (keeps.trans keeps') new made left holds'' ?_
      rw [store, Worker.reads_reading holds read]

/-- An import is refused, meets a known record, or adds a module. The file that it reads has to be the
body of a function if it is a CommonJS file. -/
theorem importModule_outcome (here : worker.session = some session)
    (idle : worker.world.requests = []) (holds : Store.Holds worker.store.store content)
    (referrer : Origin) (specifier : Text.Units)
    (body : ∀ path, referrer.target specifier.toString = some path → session.record? path = none →
      (∃ kind, session.rules.classify path = some (.supported kind)) →
        Wrapper.IsBodyAt session.rules content path) :
    ∃ result after, importModule referrer specifier worker = .ok result after ∧
      worker.Imports session content referrer specifier.toString result after := by
  cases target : referrer.target specifier.toString with
  | none =>
    obtain ⟨error, plan⟩ := session.plan_of_unnamed target
    exact importModule_refused here idle (resolve_eq plan) (.refl _ _ _) rfl rfl holds rfl
  | some path =>
    have plan := session.plan_of_target target
    cases known : session.record? path with
    | some record => exact ⟨_, _, importModule_of_known here target known, .reused target known⟩
    | none =>
      rcases Session.planPath_of_unknown known with ⟨error, refuse⟩ | ⟨kind, classified, load⟩
      · rw [refuse] at plan
        exact importModule_refused here idle (resolve_eq plan) (.refl _ _ _) rfl rfl holds rfl
      · rw [load] at plan
        exact importModule_of_load here idle holds (body path target known ⟨kind, classified⟩) target
          known classified plan

/-- The file that an import reads is the body of a function if the CommonJS files among those that are
read then are. -/
theorem isBodyAt_of_import (here : worker.session = some session)
    (bodies : ((importModule referrer specifier).final worker).store.HasBodies session.rules content)
    (target : referrer.target specifier.toString = some path)
    (unknown : session.record? path = none)
    (classified : ∃ kind, session.rules.classify path = some (.supported kind)) :
    Wrapper.IsBodyAt session.rules content path := by
  obtain ⟨kind, classified⟩ := classified
  have plan := session.plan_of_target target
  rw [Session.planPath, unknown, classified] at plan
  obtain ⟨readable, reads⟩ := reads_importModule_of_load here plan
  refine bodies path ?_
  rw [reads, List.map_append]
  exact List.mem_append_right _ (List.mem_singleton_self path)

end Hosted

end Imports
end Isolate
