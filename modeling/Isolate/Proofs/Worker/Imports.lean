import Isolate.Proofs.Session.Records
import Isolate.Worker.Loading

/-!
# Imports of a worker

What an import does to the session of a worker is a resolution, and what it reads is noted by a store
that is watched. An import of a path that has a record comes to the record, reads nothing and leaves
the world as it is.
-/

namespace Isolate

namespace Store

/-- A store that notes which paths were read, in order, and whether they could be. -/
structure Watched (σ : Type) where
  store : σ
  reads : List (Path × Bool) := []

variable {σ : Type} [Source σ]

instance : Source (Watched σ) where
  read watched path :=
    let (content, store) := Source.read watched.store path
    (content, { store, reads := watched.reads ++ [(path, content.isOk)] })

/-- A watched store has the contents of the store that is watched. -/
@[simp] theorem Watched.read_fst (watched : Watched σ) (path : Path) :
    (Source.read watched path).1 = (Source.read watched.store path).1 := rfl

@[simp] theorem Watched.read_store (watched : Watched σ) (path : Path) :
    (Source.read watched path).2.store = (Source.read watched.store path).2 := rfl

@[simp] theorem Watched.read_reads (watched : Watched σ) (path : Path) :
    (Source.read watched path).2.reads =
      watched.reads ++ [(path, (Source.read watched.store path).1.isOk)] := rfl

end Store

namespace Hosted

open Script

section Results

variable {σ α β : Type}

def final (action : Hosted σ α) (worker : Worker σ) : Worker σ :=
  match action worker with
  | .ok _ after => after
  | .error _ after => after

/-- The value of an action that succeeds. -/
def value? (action : Hosted σ α) (worker : Worker σ) : Option α :=
  match action worker with
  | .ok value _ => some value
  | .error _ _ => none

variable {worker worker' after : Worker σ} {action action' : Hosted σ α} {value : α} {abrupt : Abrupt}

theorem final_congr (h : action worker = action' worker') :
    action.final worker = action'.final worker' := by
  rw [final, final, h]

theorem value?_congr (h : action worker = action' worker') :
    action.value? worker = action'.value? worker' := by
  rw [value?, value?, h]

theorem final_of_ok (h : action worker = .ok value after) : action.final worker = after := by
  rw [final, h]

theorem final_of_error (h : action worker = .error abrupt after) : action.final worker = after := by
  rw [final, h]

theorem value?_of_ok (h : action worker = .ok value after) : action.value? worker = some value := by
  rw [value?, h]

theorem value?_of_error (h : action worker = .error abrupt after) :
    action.value? worker = none := by
  rw [value?, h]

theorem get_run (worker : Worker σ) : (get : Hosted σ _) worker = .ok worker worker := rfl

theorem bind_of_ok (h : action worker = .ok value after) (rest : α → Hosted σ β) :
    (action >>= rest) worker = rest value after := by
  change EStateM.bind action rest worker = _
  rw [EStateM.bind, h]

theorem bind_of_error (h : action worker = .error abrupt after) (rest : α → Hosted σ β) :
    (action >>= rest) worker = .error abrupt after := by
  change EStateM.bind action rest worker = _
  rw [EStateM.bind, h]

theorem final_bind_pure (action : Hosted σ α) (f : α → β) (worker : Worker σ) :
    (action >>= fun value => pure (f value)).final worker = action.final worker := by
  change Hosted.final (EStateM.bind action _) worker = _
  rw [final, final, EStateM.bind]
  cases action worker <;> rfl

theorem value?_bind_pure (action : Hosted σ α) (f : α → β) (worker : Worker σ) :
    (action >>= fun value => pure (f value)).value? worker = (action.value? worker).map f := by
  change Hosted.value? (EStateM.bind action _) worker = _
  rw [value?, value?, EStateM.bind]
  cases action worker <;> rfl

@[simp] theorem session_final_lift (action : Action α) (worker : Worker σ) :
    ((lift action).final worker).session = worker.session := by
  unfold final lift
  cases action worker.world <;> rfl

@[simp] theorem store_final_lift (action : Action α) (worker : Worker σ) :
    ((lift action).final worker).store = worker.store := by
  unfold final lift
  cases action worker.world <;> rfl

end Results

section Loading

variable {σ : Type} [Store.Source σ]

/-- The end of a load, when it is known whether the file has become a record. -/
def finishLoad (path : Path) (kind : Kind.Supported) (result : Except Error Nat) :
    Hosted σ (Except Error Nat) := do
  modifySession (·.endLoad path)
  match result with
  | .ok record => do
    modifySession (·.accept path kind record)
    pure (.ok record)
  | .error e => pure (.error e)

theorem loadPath_eq (worker : Worker σ) (path : Path) (kind : Kind.Supported) :
    loadPath path kind worker =
      let begun : Worker σ :=
        { worker with
          session := worker.session.map (·.beginLoad path)
          store := (Store.Source.read worker.store path).2 }
      match (Store.Source.read worker.store path).1 with
      | .error e => finishLoad path kind (.error (.read path e)) begun
      | .ok bytes => (lift (Loader.load path kind bytes) >>= finishLoad path kind) begun := by
  change (match (Store.Source.read worker.store path).1 with
      | .error e => pure (.error (.read path e)) >>= finishLoad path kind
      | .ok bytes => lift (Loader.load path kind bytes) >>= finishLoad path kind :
        Hosted σ (Except Error Nat)) _ = _
  cases (Store.Source.read worker.store path).1 <;> rfl

end Loading

section Finishing

variable {σ : Type} {worker : Worker σ} {session : Session Nat}

theorem finishLoad_ok (here : worker.session = some session) (path : Path) (kind : Kind.Supported)
    (record : Nat) :
    finishLoad path kind (.ok record) worker = .ok (.ok record)
      { worker with session := some ((session.endLoad path).accept path kind record) } := by
  change EStateM.Result.ok _ { worker with
    session := (worker.session.map fun (s : Session Nat) => s.endLoad path).map
      fun (s : Session Nat) => s.accept path kind record } = _
  rw [here]
  rfl

theorem finishLoad_error (here : worker.session = some session) (path : Path)
    (kind : Kind.Supported) (error : Error) :
    finishLoad path kind (.error error) worker = .ok (.error error)
      { worker with session := some (session.endLoad path) } := by
  change EStateM.Result.ok _ { worker with
    session := worker.session.map fun (s : Session Nat) => s.endLoad path } = _
  rw [here]
  rfl

/-- A loader comes to a record, which the session accepts, or it fails. -/
theorem load_cases (here : worker.session = some session) (path : Path) (kind : Kind.Supported)
    (load : Action (Except Error Nat)) :
    ∃ after, after.store = worker.store ∧
      ((∃ error, (lift load >>= finishLoad path kind) worker = .ok (.error error) after ∧
          after.session = some (session.endLoad path)) ∨
        (∃ abrupt, (lift load >>= finishLoad path kind) worker = .error abrupt after ∧
          after.session = some session) ∨
        ∃ record, (lift load >>= finishLoad path kind) worker = .ok (.ok record) after ∧
          after.session = some ((session.endLoad path).accept path kind record)) := by
  have session' := session_final_lift load worker
  have store := store_final_lift load worker
  cases loaded : lift load worker with
  | error abrupt after =>
    rw [final_of_error loaded] at session' store
    exact ⟨after, store, .inr (.inl ⟨abrupt, bind_of_error loaded _, session'.trans here⟩)⟩
  | ok result after =>
    rw [final_of_ok loaded] at session' store
    rw [here] at session'
    rw [bind_of_ok loaded]
    cases result with
    | error e =>
      exact ⟨{ after with session := some (session.endLoad path) }, store,
        .inl ⟨e, finishLoad_error session' path kind e, rfl⟩⟩
    | ok record =>
      exact ⟨{ after with session := some ((session.endLoad path).accept path kind record) }, store,
        .inr (.inr ⟨record, finishLoad_ok session' path kind record, rfl⟩)⟩

def answer (result : Except Error Nat) : Hosted σ (Except Value Nat) := do
  match result with
  | .ok record => pure (.ok record)
  | .error e => do
    modifySession (·.fail e)
    pure (.error (← lift (newError .error e.describe)))

theorem answer_of_ok (record : Nat) : answer (.ok record) worker = .ok (.ok record) worker := rfl

theorem answer_eq (here : worker.session = some session) (error : Error) :
    answer (.error error) worker =
      (lift (newError .error error.describe) >>= fun reason => pure (.error reason))
        { worker with session := some (session.fail error) } := by
  change _ = (lift (newError .error error.describe) >>= fun reason => pure (.error reason) :
    Hosted σ (Except Value Nat)) { worker with session := (some session).map (·.fail error) }
  rw [← here]
  rfl

theorem answer_of_error (here : worker.session = some session) (error : Error) :
    ((answer (.error error)).final worker).session = some (session.fail error) ∧
      ((answer (.error error)).final worker).store = worker.store ∧
      ∀ record, (answer (.error error)).value? worker ≠ some (.ok record) := by
  have left := answer_eq here error
  rw [final_congr left, value?_congr left, final_bind_pure, value?_bind_pure, session_final_lift,
    store_final_lift]
  refine ⟨rfl, rfl, fun record value => ?_⟩
  obtain ⟨_, _, clash⟩ := Option.map_eq_some_iff.mp value
  contradiction

end Finishing

variable {σ : Type} [Store.Source σ] {worker : Worker (Store.Watched σ)} {session : Session Nat}
  {referrer : Origin} {specifier : Text.Units} {path : Path} {record : Nat}

/-- Loading a path reads it. It comes to a record, which the session accepts, or to a failure. -/
theorem loadPath_cases (here : worker.session = some session) (path : Path) (kind : Kind.Supported) :
    ∃ readable after,
      after.store.reads = worker.store.reads ++ [(path, readable)] ∧
      ((∃ error, loadPath path kind worker = .ok (.error error) after ∧
          after.session = some ((session.beginLoad path).endLoad path)) ∨
        (∃ abrupt, loadPath path kind worker = .error abrupt after ∧ readable = true ∧
          after.session = some (session.beginLoad path)) ∨
        ∃ record, loadPath path kind worker = .ok (.ok record) after ∧ readable = true ∧
          after.session =
            some (((session.beginLoad path).endLoad path).accept path kind record)) := by
  rw [loadPath_eq]
  generalize start : ({ worker with
    session := worker.session.map (·.beginLoad path)
    store := (Store.Source.read worker.store path).2 } : Worker (Store.Watched σ)) = begun
  have began : begun.session = some (session.beginLoad path) := by simp [← start, here]
  have reads : begun.store.reads =
      worker.store.reads ++ [(path, (Store.Source.read worker.store path).1.isOk)] := by
    simp [← start]
  cases content : (Store.Source.read worker.store path).1 with
  | error e =>
    rw [content] at reads
    exact ⟨false, { begun with session := some ((session.beginLoad path).endLoad path) }, reads,
      .inl ⟨_, finishLoad_error began path kind _, rfl⟩⟩
  | ok bytes =>
    rw [content] at reads
    obtain ⟨after, store, cases⟩ := load_cases began path kind (Loader.load path kind bytes)
    refine ⟨true, after, by rw [store]; exact reads, ?_⟩
    rcases cases with failed | ⟨abrupt, stopped, left⟩ | ⟨record, loaded, left⟩
    · exact .inl failed
    · exact .inr (.inl ⟨abrupt, stopped, rfl, left⟩)
    · exact .inr (.inr ⟨record, loaded, rfl, left⟩)

def importIn (session : Option (Session Nat)) (referrer : Origin) (specifier : Text.Units) :
    Hosted σ (Except Value Nat) :=
  match session with
  | none => do
    pure (.error (← lift (newError .type "module resolution is disabled for this context")))
  | some session => do answer (← resolve session referrer specifier)

theorem importModule_eq_importIn (worker : Worker σ) (referrer : Origin) (specifier : Text.Units) :
    importModule referrer specifier worker =
      importIn worker.session referrer specifier worker := rfl

theorem importModule_eq {worker : Worker σ} (here : worker.session = some session)
    (referrer : Origin) (specifier : Text.Units) :
    importModule referrer specifier worker =
      (resolve session referrer specifier >>= answer) worker := by
  rw [importModule_eq_importIn, here]
  rfl

def follow (plan : Session.Plan Nat) : Hosted σ (Except Error Nat) :=
  match plan with
  | .refuse e => pure (.error e)
  | .reuse record => pure (.ok record)
  | .load path kind => loadPath path kind

theorem resolve_eq {worker : Worker σ} {plan : Session.Plan Nat} {planned : Session Nat}
    (h : session.plan referrer specifier.toString = (plan, planned)) :
    resolve session referrer specifier worker =
      follow plan { worker with session := some planned } := by
  change follow (session.plan referrer specifier.toString).1
    { worker with session := some (session.plan referrer specifier.toString).2 } = _
  rw [h]

section Answers

variable {worker after : Worker σ}

theorem importModule_of_ok (here : worker.session = some session)
    (h : resolve session referrer specifier worker = .ok (.ok record) after) :
    importModule referrer specifier worker = .ok (.ok record) after := by
  rw [importModule_eq here, bind_of_ok h, answer_of_ok]

theorem importModule_of_error {planned : Session Nat} {error : Error}
    (here : worker.session = some session)
    (h : resolve session referrer specifier worker = .ok (.error error) after)
    (left : after.session = some planned) :
    ((importModule referrer specifier).final worker).session = some (planned.fail error) ∧
      ((importModule referrer specifier).final worker).store = after.store ∧
      ∀ record, (importModule referrer specifier).value? worker ≠ some (.ok record) := by
  have same : importModule referrer specifier worker = answer (.error error) after := by
    rw [importModule_eq here, bind_of_ok h]
  rw [final_congr same, value?_congr same]
  exact answer_of_error left error

theorem importModule_of_abrupt {abrupt : Abrupt} (here : worker.session = some session)
    (h : resolve session referrer specifier worker = .error abrupt after) :
    importModule referrer specifier worker = .error abrupt after := by
  rw [importModule_eq here, bind_of_error h]

/-- Without a session nothing is resolved. -/
theorem importModule_of_none (here : worker.session = none) :
    ((importModule referrer specifier).final worker).session = none ∧
      ((importModule referrer specifier).final worker).store = worker.store ∧
      ∀ record, (importModule referrer specifier).value? worker ≠ some (.ok record) := by
  have left : importModule referrer specifier worker =
      (lift (newError .type "module resolution is disabled for this context") >>=
        fun reason => pure (.error reason)) worker := by
    rw [importModule_eq_importIn, here]
    rfl
  rw [final_congr left, value?_congr left, final_bind_pure, value?_bind_pure, session_final_lift,
    store_final_lift]
  refine ⟨here, rfl, fun record value => ?_⟩
  obtain ⟨_, _, clash⟩ := Option.map_eq_some_iff.mp value
  contradiction

/-- An import of a path that has a record comes to the record, and changes nothing but the paths that
imports named. -/
theorem importModule_of_known (here : worker.session = some session)
    (target : referrer.target specifier.toString = some path)
    (known : session.record? path = some record) :
    importModule referrer specifier worker =
      .ok (.ok record) { worker with session := some (session.refer path) } := by
  have plan := session.plan_of_target target
  rw [Session.planPath_of_known known] at plan
  exact importModule_of_ok here (resolve_eq plan)

end Answers

/-- An import of a path that is to be loaded reads it, whatever comes of it. -/
theorem reads_importModule_of_load {kind : Kind.Supported} {planned : Session Nat}
    (here : worker.session = some session)
    (plan : session.plan referrer specifier.toString = (.load path kind, planned)) :
    ∃ readable, ((importModule referrer specifier).final worker).store.reads =
      worker.store.reads ++ [(path, readable)] := by
  have begun : ({ worker with session := some planned } : Worker (Store.Watched σ)).session =
    some planned := rfl
  obtain ⟨readable, after, reads, cases⟩ := loadPath_cases begun path kind
  refine ⟨readable, ?_⟩
  rcases cases with ⟨error, failed, next⟩ | ⟨abrupt, stopped, _, _⟩ | ⟨record, loaded, _, _⟩
  · rw [(importModule_of_error here ((resolve_eq plan).trans failed) next).2.1, reads]
  · rw [final_of_error (importModule_of_abrupt here ((resolve_eq plan).trans stopped)), reads]
  · rw [final_of_ok (importModule_of_ok here ((resolve_eq plan).trans loaded)), reads]

/-- What an import does to the session of its worker is a resolution. -/
theorem importModule_resolves (here : worker.session = some session) (referrer : Origin)
    (specifier : Text.Units) :
    ∃ read result next,
      session.Resolves referrer specifier.toString read result next ∧
      ((importModule referrer specifier).final worker).session = some next ∧
      ((importModule referrer specifier).final worker).store.reads =
        worker.store.reads ++ read.toList ∧
      ∀ record, (importModule referrer specifier).value? worker = some (.ok record) ↔
        result = some record := by
  cases target : referrer.target specifier.toString with
  | none =>
    obtain ⟨error, plan⟩ := session.plan_of_unnamed target
    obtain ⟨left, store, failed⟩ := importModule_of_error here (resolve_eq plan) rfl
    exact ⟨none, none, _, .unnamed target error, left, by simp [store], by simpa using failed⟩
  | some path =>
    have plan := session.plan_of_target target
    cases known : session.record? path with
    | some record =>
      have done := importModule_of_known here target known
      refine ⟨none, some record, _, .reused target known, ?_, ?_, ?_⟩
      · rw [final_of_ok done]
      · simp [final_of_ok done]
      · simp [value?_of_ok done]
    | none =>
      rcases Session.planPath_of_unknown known with ⟨error, refuse⟩ | ⟨kind, classified, load⟩
      · rw [refuse] at plan
        obtain ⟨left, store, failed⟩ := importModule_of_error here (resolve_eq plan) rfl
        exact ⟨none, none, _, .refused target known error, left, by simp [store],
          by simpa using failed⟩
      · rw [load] at plan
        have loads : resolve session referrer specifier worker = loadPath path kind _ :=
          resolve_eq plan
        have begun : ({ worker with session := some (session.refer path) } :
            Worker (Store.Watched σ)).session = some (session.refer path) := rfl
        obtain ⟨readable, after, reads, cases⟩ := loadPath_cases begun path kind
        rcases cases with ⟨error, failed, next⟩ | ⟨abrupt, stopped, rfl, next⟩ |
          ⟨record, loaded, rfl, next⟩
        · obtain ⟨left, store, unanswered⟩ := importModule_of_error here (loads.trans failed) next
          exact ⟨some (path, readable), none, _, .failed target known classified readable error,
            left, by simp [store, reads], by simpa using unanswered⟩
        · have ended := importModule_of_abrupt here (loads.trans stopped)
          refine ⟨some (path, true), none, _, .stopped target known classified, ?_, ?_, ?_⟩
          · rw [final_of_error ended, next]
          · simp [final_of_error ended, reads]
          · simp [value?_of_error ended]
        · have done := importModule_of_ok here (loads.trans loaded)
          refine ⟨some (path, true), some record, _, .loaded target known classified record, ?_, ?_,
            ?_⟩
          · rw [final_of_ok done, next]
          · simp [final_of_ok done, reads]
          · simp [value?_of_ok done]

/-- What an import comes to has a record from then on. -/
theorem exists_record_of_importModule {after : Worker (Store.Watched σ)}
    (done : importModule referrer specifier worker = .ok (.ok record) after) :
    ∃ session path, after.session = some session ∧ session.record? path = some record := by
  cases here : worker.session with
  | none => exact absurd (value?_of_ok done) ((importModule_of_none here).2.2 record)
  | some session =>
    obtain ⟨_, result, next, resolves, left, _, value⟩ :=
      importModule_resolves here referrer specifier
    obtain rfl := (value record).mp (value?_of_ok done)
    rw [final_of_ok done] at left
    cases target : referrer.target specifier.toString with
    | none =>
      cases resolves with
      | reused target' | loaded target' =>
        rw [target] at target'
        contradiction
    | some path => exact ⟨next, path, left, resolves.record?_of_result target⟩

end Hosted
end Isolate
