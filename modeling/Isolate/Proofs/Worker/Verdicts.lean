import Isolate.Proofs.Worker.Imports
import Isolate.Proofs.Worker.Law
import Isolate.Proofs.Worker.Loaders

/-!
# What importing a path comes to

An import of a path without a record is judged by the rules, by the content of the file and by its
loader, and by nothing that happened before. An import that fails leaves the session as it was, but for
the path that it named and for the failure that is noted, and it adds no module.
-/

namespace Isolate

open Script

/-- A failure to find or to load what code imports. -/
def Error.IsImport (e : Error) : Prop := e.phase = .link ∨ e.phase = .load ∨ e.phase = .compile

/-- Unwrapping a location leaves the stage of a failure as it is. -/
@[simp] theorem Error.phase_mapLocation (e : Error) (f : Location → Location) :
    (e.mapLocation f).phase = e.phase := by cases e <;> rfl

/-- A file that cannot be read as what it is, is a failure to compile. -/
@[simp] theorem Error.phase_ofFault (fault : Grammar.Fault) (label : String) :
    (Error.ofFault fault label).phase = .compile := rfl

theorem Kind.Supported.isImport_fault? {kind : Kind.Supported} {path : Path} {bytes : Bytes}
    {error : Error} (faulty : kind.fault? path bytes = some error) : error.IsImport := by
  unfold fault? at faulty
  cases kind with
  | esModule | commonJS =>
    dsimp only at faulty
    refine .inr (.inr ?_)
    split at faulty
    next =>
      rw [← Option.some.inj faulty]
      simp
    next =>
      split at faulty
      next =>
        rw [← Option.some.inj faulty]
        simp
      next => cases faulty
  | text | compiledWasm =>
    dsimp only at faulty
    refine .inr (.inl ?_)
    split at faulty
    next => exact Option.some.inj faulty ▸ rfl
    next => cases faulty
  | data => cases faulty

def Script.World.SameModules (w w' : World) : Prop := w'.modules.size = w.modules.size

/-- Running code adds no module. -/
instance : World.IsLaw World.SameModules where
  refl _ := rfl
  trans _ _ _ first later := later.trans first
  objects _ _ _ := rfl
  scopes _ _ := rfl
  modules _ _ _ kept := kept
  place _ _ _ _ := rfl
  jobs _ _ := rfl
  request _ _ _ _ := rfl
  record _ _ := rfl
  compile _ _ _ := rfl
  refuse _ _ _ := rfl

theorem Script.runs_capture {α : Type} (action : Action α) (w : World) :
    Runs (capture action) w fun _ w' => w' = left action w := by
  unfold Runs capture
  cases done : action w with
  | ok value after => exact ⟨.ok value, after, rfl, (left_of_ok done).symm⟩
  | error abrupt after => exact ⟨.error abrupt, after, rfl, (left_of_error done).symm⟩

namespace Loader

/-- Why a file did not become a module, if it did not. -/
def failure? : Except Error Nat → Option Error
  | .error error => some error
  | .ok _ => none

/-- A file becomes the next module, or it does not and no module is added. -/
def Settles (w : World) (result : Except Error Nat) (w' : World) : Prop :=
  (∃ error, result = .error error ∧ error.IsImport ∧ w'.modules.size = w.modules.size) ∨
    result = .ok w.modules.size ∧ w'.modules.size = w.modules.size + 1

/-- Whether a file becomes a module, and why not, is the same in every world. -/
def Decides (path : Path) (kind : Kind.Supported) (bytes : Bytes) (fault : Option Error) : Prop :=
  ∀ w, Runs (load path kind bytes) w fun result _ => failure? result = fault

variable {path : Path} {kind : Kind.Supported} {bytes : Bytes} {w w' : World}
  {requests : List Text.Units} {fault : Option Error} {result : Except Error Nat}

theorem Settles.of_eq {w₀ : World} (same : w.modules.size = w₀.modules.size)
    (h : Settles w result w') : Settles w₀ result w' := by
  rw [Settles, same] at h
  exact h

theorem settles_of_loads (h : Loads path requests (kind.fault? path bytes) w result w') :
    Settles w result w' := by
  rcases h with ⟨error, faulty, failed, calm⟩ | ⟨_, module, added, grown, _⟩
  · exact .inl ⟨error, failed, Kind.Supported.isImport_fault? faulty, by simp [calm.modules]⟩
  · exact .inr ⟨added, by simp [grown.modules]⟩

/-- Code that is run when a CommonJS file is loaded, since the file is more than the body of a function,
may do anything but add modules. -/
theorem settles_commonJs (path : Path) (bytes : Bytes) (w : World) :
    Runs (commonJs path bytes) w (Settles w) := by
  have refused (w : World) (fault : Grammar.Fault) : Runs
      (pure (.error ((Error.ofFault fault path.text).mapLocation Wrapper.unwrap))) w (Settles w) :=
    .pure (.inl ⟨_, rfl, .inr (.inr rfl), rfl⟩)
  rw [commonJs]
  dsimp only
  cases Text.Utf8.decode bytes with
  | error _ => exact refused w _
  | ok text =>
    dsimp only
    cases Grammar.readSoundScript (Wrapper.wrap text) false with
    | error fault => exact refused w fault
    | ok tree =>
      dsimp only
      refine (runs_addUnit _ w).bind fun unit w₁ added => ?_
      obtain ⟨calm, _, _⟩ := added
      refine (runs_capture (runProgram unit) w₁).bind fun ran w₂ left => ?_
      have unit_kept : w₁.modules.size = w.modules.size := by simp [calm.modules]
      have ran_kept : w₂.modules.size = w₁.modules.size :=
        left ▸ obeys_runProgram (R := World.SameModules) unit w₁
      have same : w₂.modules.size = w.modules.size := ran_kept.trans unit_kept
      cases ran with
      | error abrupt => exact ⟨_, w₂, rfl, .inl ⟨_, rfl, .inr (.inr rfl), same⟩⟩
      | ok wrapper =>
        refine (runs_addModule _ none w₂).bind fun id w₃ added => .pure ?_
        obtain ⟨next, module, grown, _⟩ := added
        refine Settles.of_eq same (.inr ⟨congrArg _ next, ?_⟩)
        simp [grown.modules]

/-- Loading a file ends in every world, with a module or without one. -/
theorem settles_load (path : Path) (kind : Kind.Supported) (bytes : Bytes) (w : World) :
    Runs (load path kind bytes) w (Settles w) := by
  by_cases common : kind = .commonJS
  · subst common
    exact settles_commonJs path bytes w
  · have loads : Runs (load path kind bytes) w
        (Loads path (kind.requests bytes) (kind.fault? path bytes) w) :=
      runs_load path kind (fun same => absurd same common) w
    exact loads.mono fun _ _ => settles_of_loads

/-- All but code that is run when it is loaded is decided by its text. -/
theorem decides_fault?
    (body : kind = .commonJS → ∀ text, Text.Utf8.decode bytes = .ok text → Wrapper.IsBody text) :
    Decides path kind bytes (kind.fault? path bytes) := fun w =>
  (runs_load path kind body w).mono fun result w' loads => by
    rcases loads with ⟨error, faulty, failed, _⟩ | ⟨sound, module, added, _, _⟩
    · rw [failed, faulty, failure?]
    · rw [added, sound, failure?]

end Loader

/-- Why a path without a record cannot be imported, if it cannot: the rules give it no kind that is
loaded, or it cannot be read, or it does not become a module. -/
def Rules.verdict (rules : Rules) (content : Except Store.Error Bytes)
    (fault : Kind.Supported → Bytes → Option Isolate.Error) (path : Path) : Option Isolate.Error :=
  match rules.classify path with
  | none => some (.noMatchingRule path)
  | some (.unsupported name) => some (.unsupportedKind name path)
  | some (.supported kind) =>
    match content with
    | .error e => some (.read path e)
    | .ok bytes => fault kind bytes

/-- What an import of a path without a record comes to: the failure that the verdict says, or the record
of the module that is added next. -/
def Rules.outcome (rules : Rules) (content : Except Store.Error Bytes)
    (fault : Kind.Supported → Bytes → Option Isolate.Error) (path : Path) (number : Nat) :
    Except Isolate.Error Nat :=
  match rules.verdict content fault path with
  | some error => .error error
  | none => .ok number

/-- A session is as it was, but for a path that an import named and for failures that were noted. -/
structure Session.Unmarked {ρ : Type} (session next : Session ρ) (target : Option Path) : Prop where
  rules : next.rules = session.rules
  records : next.records = session.records
  wrapped : next.wrapped = session.wrapped
  isBound : next.isBound = session.isBound
  /-- Unless the path itself was being loaded before, the same paths are being loaded. -/
  loading : (∀ p ∈ session.loading, ∀ path, target = some path → ¬p.same path) →
    next.loading = session.loading
  referenced : next.referenced = session.referenced ∨
    ∃ path, target = some path ∧ next.referenced = path.insertSorted session.referenced

namespace Session

variable {ρ : Type} {session next : Session ρ} {target : Option Path} {path : Path}

theorem Unmarked.refl (session : Session ρ) (target : Option Path) :
    session.Unmarked session target :=
  ⟨rfl, rfl, rfl, rfl, fun _ => rfl, .inl rfl⟩

theorem Unmarked.refer (session : Session ρ) (path : Path) :
    session.Unmarked (session.refer path) (some path) :=
  ⟨rfl, rfl, rfl, rfl, fun _ => rfl, .inr ⟨path, rfl, rfl⟩⟩

theorem Unmarked.fail (h : session.Unmarked next target) (error : Error) :
    session.Unmarked (next.fail error) target :=
  ⟨h.rules, h.records, h.wrapped, h.isBound, h.loading, h.referenced⟩

theorem loading_endLoad (session : Session ρ) (apart : ∀ p ∈ session.loading, ¬p.same path) :
    ((session.beginLoad path).endLoad path).loading = session.loading := by
  change (path :: session.loading).filter (!·.same path) = session.loading
  rw [List.filter_cons_of_neg (by simp), List.filter_eq_self]
  intro p member
  simp [apart p member]

/-- A load that has ended is not under way any more. -/
theorem Unmarked.endLoad (session : Session ρ) (path : Path) :
    session.Unmarked (((session.refer path).beginLoad path).endLoad path) (some path) where
  rules := rfl
  records := rfl
  wrapped := rfl
  isBound := rfl
  loading apart := loading_endLoad (session.refer path) fun p member => apart p member path rfl
  referenced := .inr ⟨path, rfl, rfl⟩

/-- All that resolving an import comes to when the next module to be added has a number, and the session
that it leaves. A failure is not noted yet. -/
inductive Answers (session : Session Nat) (referrer : Origin) (specifier : String) (number : Nat) :
    Except Error Nat → Session Nat → Prop where
  | unnamed (target : referrer.target specifier = none) {error : Error} (load : error.IsImport) :
      Answers session referrer specifier number (.error error) session
  | refused {path : Path} (target : referrer.target specifier = some path)
      (unknown : session.record? path = none) {error : Error} (load : error.IsImport) :
      Answers session referrer specifier number (.error error) (session.refer path)
  | reused {path : Path} {record : Nat} (target : referrer.target specifier = some path)
      (known : session.record? path = some record) :
      Answers session referrer specifier number (.ok record) (session.refer path)
  /-- The file cannot be read, or it does not become a module. -/
  | failed {path : Path} {kind : Kind.Supported} (target : referrer.target specifier = some path)
      (unknown : session.record? path = none)
      (classified : session.rules.classify path = some (.supported kind)) {error : Error}
      (load : error.IsImport) :
      Answers session referrer specifier number (.error error)
        (((session.refer path).beginLoad path).endLoad path)
  | loaded {path : Path} {kind : Kind.Supported} (target : referrer.target specifier = some path)
      (unknown : session.record? path = none)
      (classified : session.rules.classify path = some (.supported kind)) :
      Answers session referrer specifier number (.ok number)
        ((((session.refer path).beginLoad path).endLoad path).accept path kind number)

section Answers

variable {session next : Session Nat} {referrer : Origin} {specifier : String} {number : Nat}
  {error : Error}

theorem Answers.isImport (h : session.Answers referrer specifier number (.error error) next) :
    error.IsImport := by
  cases h with
  | unnamed _ load | refused _ _ load | failed _ _ _ load => exact load

theorem Answers.failures_eq {result : Except Error Nat}
    (h : session.Answers referrer specifier number result next) : next.failures = session.failures := by
  cases h with
  | unnamed | refused | reused | failed => rfl
  | loaded =>
    rw [accept]
    split <;> rfl

/-- An import that fails leaves no mark. -/
theorem Answers.unmarked (h : session.Answers referrer specifier number (.error error) next) :
    session.Unmarked next (referrer.target specifier) := by
  cases h with
  | unnamed => exact .refl _ _
  | refused target => exact target ▸ .refer session _
  | failed target => exact target ▸ .endLoad session _

end Answers

/-- A relation between sessions that holds across all that a worker does to its session. -/
class IsLaw (K : Session Nat → Session Nat → Prop) : Prop extends IsPreorder (Session Nat) K where
  refer (session : Session Nat) (path : Path) : K session (session.refer path)
  /-- A load ends without a record. -/
  attempt (session : Session Nat) (path : Path) : K session ((session.beginLoad path).endLoad path)
  /-- A load of a path that an import names ends with a record. -/
  accept (session : Session Nat) (path : Path) (kind : Kind.Supported) (record : Nat)
    (named : ∃ (referrer : Origin) (specifier : String), referrer.target specifier = some path)
    (unknown : session.record? path = none)
    (classified : session.rules.classify path = some (.supported kind)) :
    K session (session.accept path kind record)
  fail (session : Session Nat) (error : Error) (load : error.IsImport) : K session (session.fail error)
  clearFailures (session : Session Nat) : K session session.clearFailures

/-- Whatever an import comes to obeys every law of sessions. -/
theorem Answers.obeys {K : Session Nat → Session Nat → Prop} [law : IsLaw K] {session next : Session Nat}
    {referrer : Origin} {specifier : String} {number : Nat} {result : Except Error Nat}
    (h : session.Answers referrer specifier number result next) : K session next := by
  cases h with
  | unnamed => exact law.refl _
  | refused | reused => exact law.refer session _
  | failed => exact law.trans _ _ _ (law.refer session _) (law.attempt _ _)
  | @loaded path kind target unknown classified =>
    refine law.trans _ _ _ (law.refer session path) (law.trans _ _ _ (law.attempt _ path) ?_)
    exact law.accept _ path kind number ⟨referrer, specifier, target⟩ unknown classified

/-- What names no path is refused. -/
theorem plan_refuses (session : Session ρ) {referrer : Origin} {specifier : String}
    (unnamed : referrer.target specifier = none) :
    ∃ error, error.IsImport ∧ session.plan referrer specifier = (.refuse error, session) := by
  cases referrer with
  | anonymous => exact ⟨_, .inl rfl, rfl⟩
  | file path =>
    change path.resolve specifier = none at unnamed
    exact ⟨.unresolvableSpecifier specifier path.text, .inl rfl, by simp only [plan, unnamed]⟩

end Session

section Workers

variable {σ : Type}

namespace Hosted

variable {worker : Worker σ} {session planned : Session Nat} {path : Path} {kind : Kind.Supported}
  {referrer : Origin} {specifier : Text.Units}

/-- An action on the world, with what it does to the worker. -/
theorem lift_returns {α : Type} {action : Action α} {Q : α → World → Prop}
    (runs : Runs action worker.world Q) :
    ∃ value w', action worker.world = .ok value w' ∧ Q value w' ∧
      lift action worker = .ok value
        { worker with
          world := { w' with requests := [] }
          queue := worker.queue ++ w'.requests.map .dynamic } := by
  obtain ⟨value, w', done, holds⟩ := runs
  exact ⟨value, w', done, holds, by rw [lift, done]⟩

variable [Store.Source σ]

/-- Loading a path ends, with what reading it and its loader come to. -/
theorem loadPath_ends (here : worker.session = some session) (path : Path) (kind : Kind.Supported) :
    ∃ result after, loadPath path kind worker = .ok result after ∧
      (match (Store.Source.read worker.store path).1 with
        | .error e => result = .error (.read path e)
        | .ok bytes => ∃ w', Loader.load path kind bytes worker.world = .ok result w') ∧
      ((∃ error, result = .error error ∧ error.IsImport ∧
          after.session = some ((session.beginLoad path).endLoad path) ∧
          after.world.modules.size = worker.world.modules.size) ∨
        result = .ok worker.world.modules.size ∧
          after.session = some (((session.beginLoad path).endLoad path).accept path kind
            worker.world.modules.size)) := by
  rw [loadPath_eq]
  dsimp only
  generalize start : ({ worker with
    session := worker.session.map (·.beginLoad path)
    store := (Store.Source.read worker.store path).2 } : Worker σ) = begun
  have began : begun.session = some (session.beginLoad path) := by simp [← start, here]
  have same : begun.world = worker.world := by rw [← start]
  cases (Store.Source.read worker.store path).1 with
  | error e =>
    refine ⟨_, _, finishLoad_error began path kind _, rfl, .inl ⟨_, rfl, .inr (.inl rfl), rfl, ?_⟩⟩
    rw [← same]
  | ok bytes =>
    dsimp only
    rw [← same]
    obtain ⟨result, w', done, settles, loaded⟩ :=
      lift_returns (Loader.settles_load path kind bytes begun.world)
    rw [bind_of_ok loaded]
    generalize lifted : ({ begun with
      world := { w' with requests := [] }
      queue := begun.queue ++ w'.requests.map .dynamic } : Worker σ) = after
    have left : after.session = some (session.beginLoad path) := by rw [← lifted, began]
    have modules : after.world.modules = w'.modules := by rw [← lifted]
    rcases settles with ⟨error, rfl, load, kept⟩ | ⟨rfl, _⟩
    · exact ⟨_, _, finishLoad_error left path kind error, ⟨w', done⟩,
        .inl ⟨error, rfl, load, rfl, modules ▸ kept⟩⟩
    · exact ⟨_, _, finishLoad_ok left path kind _, ⟨w', done⟩, .inr ⟨rfl, rfl⟩⟩

/-- What a session without a record for a path has to load is what no verdict refuses. -/
theorem planPath_verdict (unknown : session.record? path = none)
    (content : Except Store.Error Bytes) (fault : Kind.Supported → Bytes → Option Error) :
    (∃ error, session.planPath path = .refuse error ∧ error.IsImport ∧
        session.rules.verdict content fault path = some error) ∨
      ∃ kind, session.planPath path = .load path kind ∧
        session.rules.classify path = some (.supported kind) ∧
        session.rules.verdict content fault path =
          match content with
          | .error e => some (.read path e)
          | .ok bytes => fault kind bytes := by
  rw [Session.planPath, unknown, Rules.verdict]
  dsimp only
  cases session.rules.classify path with
  | none => exact .inl ⟨_, rfl, .inl rfl, rfl⟩
  | some kind =>
    cases kind with
    | unsupported name => exact .inl ⟨_, rfl, .inl rfl, rfl⟩
    | supported kind => exact .inr ⟨kind, rfl, rfl, rfl⟩

/-- Resolving an import ends. If it fails no module is added. -/
theorem resolve_ends (worker : Worker σ) (session : Session Nat) (referrer : Origin)
    (specifier : Text.Units) :
    ∃ result after next, resolve session referrer specifier worker = .ok result after ∧
      after.session = some next ∧
      session.Answers referrer specifier.toString worker.world.modules.size result next ∧
      ((∃ error, result = .error error) →
        after.world.modules.size = worker.world.modules.size) := by
  cases target : referrer.target specifier.toString with
  | none =>
    obtain ⟨error, load, plan⟩ := session.plan_refuses target
    exact ⟨_, _, _, resolve_eq plan, rfl, .unnamed target load, fun _ => rfl⟩
  | some path =>
    have plan := session.plan_of_target target
    cases known : session.record? path with
    | some record =>
      rw [Session.planPath_of_known known] at plan
      exact ⟨_, _, _, resolve_eq plan, rfl, .reused target known, fun _ => rfl⟩
    | none =>
      -- Only the plan matters here, which is the same whatever the file holds.
      rcases planPath_verdict known (.ok []) (fun _ _ => none) with
        ⟨error, refused, load, _⟩ | ⟨kind, planned, classified, _⟩
      · rw [refused] at plan
        exact ⟨_, _, _, resolve_eq plan, rfl, .refused target known load, fun _ => rfl⟩
      · rw [planned] at plan
        have begun : ({ worker with session := some (session.refer path) } : Worker σ).session =
            some (session.refer path) := rfl
        obtain ⟨result, after, done, _, ends⟩ := loadPath_ends begun path kind
        have resolved := (resolve_eq plan).trans done
        rcases ends with ⟨error, rfl, load, left, kept⟩ | ⟨rfl, left⟩
        · exact ⟨_, after, _, resolved, left, .failed target known classified load, fun _ => kept⟩
        · exact ⟨_, after, _, resolved, left, .loaded target known classified, fun ⟨_, clash⟩ => by
            contradiction⟩

/-- Importing a module ends. A failure is noted, and adds no module. -/
theorem importModule_ends (here : worker.session = some session) (referrer : Origin)
    (specifier : Text.Units) :
    ∃ answered after result next, importModule referrer specifier worker = .ok answered after ∧
      (resolve session referrer specifier).value? worker = some result ∧
      session.Answers referrer specifier.toString worker.world.modules.size result next ∧
      ((∃ record, result = .ok record ∧ answered = .ok record ∧ after.session = some next) ∨
        ∃ error reason, result = .error error ∧ answered = .error reason ∧
          after.session = some (next.fail error) ∧
          after.world.modules.size = worker.world.modules.size) := by
  obtain ⟨result, middle, next, resolved, left, answers, kept⟩ :=
    resolve_ends worker session referrer specifier
  rw [importModule_eq here, bind_of_ok resolved, value?_of_ok resolved]
  cases result with
  | ok record =>
    exact ⟨_, middle, _, next, answer_of_ok record, rfl, answers, .inl ⟨record, rfl, rfl, left⟩⟩
  | error error =>
    obtain ⟨reason, w', made, calm, lifted⟩ :=
      lift_returns (quiet_newError .error error.describe
        ({ middle with session := some (next.fail error) } : Worker σ).world)
    rw [answer_eq left, bind_of_ok lifted]
    refine ⟨_, _, _, next, rfl, rfl, answers, .inr ⟨error, reason, rfl, rfl, rfl, ?_⟩⟩
    rw [← kept ⟨error, rfl⟩]
    simp [calm.modules]

/-- What resolving a path without a record comes to is what the rules, the content of the file and its
loader say. -/
theorem resolve_verdict {path : Path} (target : referrer.target specifier.toString = some path)
    (unknown : session.record? path = none) {fault : Kind.Supported → Bytes → Option Error}
    (decided : ∀ kind bytes, session.rules.classify path = some (.supported kind) →
      (Store.Source.read worker.store path).1 = .ok bytes →
        Loader.Decides path kind bytes (fault kind bytes)) :
    (resolve session referrer specifier).value? worker =
      some (session.rules.outcome (Store.Source.read worker.store path).1 fault path
        worker.world.modules.size) := by
  have plan := session.plan_of_target target
  rw [Rules.outcome]
  rcases planPath_verdict unknown (Store.Source.read worker.store path).1 fault with
    ⟨error, refused, _, verdict⟩ | ⟨kind, planned, classified, verdict⟩
  · rw [refused] at plan
    rw [value?_of_ok (resolve_eq plan), verdict]
  · rw [planned] at plan
    have begun : ({ worker with session := some (session.refer path) } : Worker σ).session =
        some (session.refer path) := rfl
    obtain ⟨result, after, done, told, ends⟩ := loadPath_ends begun path kind
    rw [value?_of_ok ((resolve_eq plan).trans done), verdict]
    dsimp only at told
    cases content : (Store.Source.read worker.store path).1 with
    | error e =>
      rw [content] at told
      rw [told]
    | ok bytes =>
      rw [content] at told
      obtain ⟨w', loaded⟩ := told
      obtain ⟨_, _, loaded', decides⟩ := decided kind bytes classified content worker.world
      obtain ⟨rfl, -⟩ := EStateM.Result.ok.inj (loaded.symm.trans loaded')
      dsimp only
      rw [← decides]
      rcases ends with ⟨error, rfl, _⟩ | ⟨rfl, _⟩ <;> rfl

end Hosted

/-- A relation holds between the sessions of two workers, if the first one has a session. -/
def Worker.Carries (K : Session Nat → Session Nat → Prop) (worker later : Worker σ) : Prop :=
  ∀ session, worker.session = some session → ∃ next, later.session = some next ∧ K session next

section Laws

variable {K : Session Nat → Session Nat → Prop} [law : Session.IsLaw K]

theorem Worker.Carries.of_eq {worker later : Worker σ} (same : later.session = worker.session) :
    worker.Carries K later := fun session here => ⟨session, same.trans here, law.refl session⟩

omit law in
theorem Worker.Carries.map {worker : Worker σ} {f : Session Nat → Session Nat}
    (each : ∀ session : Session Nat, K session (f session)) :
    worker.Carries K { worker with session := worker.session.map f } := fun session here =>
  ⟨f session, by rw [here, Option.map_some], each session⟩

instance [Store.Source σ] : Worker.IsLaw (Worker.Carries (σ := σ) K) where
  refl _ := .of_eq rfl
  trans first second third earlier later session here := by
    obtain ⟨middle, here', obeyed⟩ := earlier session here
    obtain ⟨next, here'', obeyed'⟩ := later middle here'
    exact ⟨next, here'', law.trans _ _ _ obeyed obeyed'⟩
  lift {_ action} _ worker := by
    refine .of_eq ?_
    unfold left Hosted.lift
    cases action worker.world <;> rfl
  importModule referrer specifier worker session here := by
    obtain ⟨_, after, _, next, done, _, answers, cases⟩ :=
      Hosted.importModule_ends here referrer specifier
    rw [left_of_ok done]
    rcases cases with ⟨_, rfl, _, left⟩ | ⟨error, _, rfl, _, left, _⟩
    · exact ⟨next, left, answers.obeys⟩
    · exact ⟨_, left, law.trans _ _ _ answers.obeys (law.fail next error answers.isImport)⟩
  clearFailures _ := .map law.clearFailures
  tasks _ _ _ _ _ := .of_eq rfl
  forget _ _ _ := .of_eq rfl

end Laws

/-- A session goes on with the same rules. No load is left under way, and all failures that are noted
are failures of imports. -/
structure Session.Continues (session next : Session Nat) : Prop where
  rules : next.rules = session.rules
  loading : session.loading = [] → next.loading = []
  failures : (∀ e ∈ session.failures, e.IsImport) → ∀ e ∈ next.failures, e.IsImport

/-- Whatever a worker does, its session goes on. -/
instance : Session.IsLaw Session.Continues where
  refl _ := ⟨rfl, id, id⟩
  trans _ _ _ earlier later :=
    ⟨later.rules.trans earlier.rules, later.loading ∘ earlier.loading,
      later.failures ∘ earlier.failures⟩
  refer _ _ := ⟨rfl, id, id⟩
  attempt session path :=
    ⟨rfl, fun idle => (session.loading_endLoad (by simp [idle])).trans idle, id⟩
  accept session path kind record _ _ _ := by
    rw [Session.accept]
    split <;> exact ⟨rfl, id, id⟩
  fail session error load := by
    refine ⟨rfl, id, fun imports e member => ?_⟩
    rcases List.mem_append.mp member with member | member
    · exact imports e member
    · exact List.mem_singleton.mp member ▸ load
  clearFailures _ := ⟨rfl, id, fun _ _ member => nomatch member⟩

end Workers
end Isolate
