import Isolate.Proofs.Blueprint.Law

/-!
# Imports after imports that failed

Whatever is built and run, no load is left under way, and the session goes by the rules that it began
with. Since an import that fails leaves no record and no other mark, a path that has none is judged
afresh by every import: by the rules, and by what the file holds at that moment.
-/

namespace Isolate

open Script

variable {σ : Type} [Store.Source σ]

namespace Worker

variable {K : Session Nat → Session Nat → Prop} [law : Session.IsLaw K]

/-- Every deed but binding a session obeys every law of sessions. -/
theorem act_carries (binds : ∀ session next : Session Nat, session.bind = .ok next → K session next)
    (worker : Worker (Store.Watched σ)) (deed : Deed σ) :
    worker.Carries K (worker.act deed) := by
  cases deed with
  | resolve referrer specifier =>
    rw [act, ← Hosted.left_eq_final]
    exact IsLaw.importModule (S := Worker.Carries K) referrer specifier worker
  | bind =>
    refine .map fun session => ?_
    cases bound : session.bind with
    | error e => exact law.refl session
    | ok next => exact binds session next bound
  | clearFailures => exact .map law.clearFailures
  | takeFailure text fallback =>
    refine .map fun session => ?_
    rw [Session.takeFailure]
    split
    · exact law.clearFailures session
    · exact law.refl session
  | change change => exact .of_eq rfl

theorem after_carries (binds : ∀ session next : Session Nat, session.bind = .ok next → K session next)
    (worker : Worker (Store.Watched σ)) (deeds : List (Deed σ)) :
    worker.Carries K (worker.after deeds) := by
  induction deeds generalizing worker with
  | nil => exact .of_eq rfl
  | cons deed deeds ih =>
    exact IsTrans.trans (r := Worker.Carries K) _ _ _ (act_carries binds worker deed) (ih _)

end Worker

namespace Hosted

/-- Two sessions with the same rules and records resolve an import alike, as far as the files that it
names hold the same. -/
theorem resolve_congr {worker other : Worker σ} {session clean : Session Nat} {referrer : Origin}
    {specifier : Text.Units} {fault : Kind.Supported → Bytes → Option Error}
    (rules : clean.rules = session.rules) (records : clean.records = session.records)
    (modules : other.world.modules.size = worker.world.modules.size)
    (content : ∀ path, referrer.target specifier.toString = some path →
      (Store.Source.read other.store path).1 = (Store.Source.read worker.store path).1)
    (decided : ∀ path kind bytes, referrer.target specifier.toString = some path →
      session.rules.classify path = some (.supported kind) →
        (Store.Source.read worker.store path).1 = .ok bytes →
          Loader.Decides path kind bytes (fault kind bytes)) :
    (resolve clean referrer specifier).value? other =
      (resolve session referrer specifier).value? worker := by
  have found (path : Path) : clean.record? path = session.record? path := by
    rw [Session.record?, records, Session.record?]
  cases target : referrer.target specifier.toString with
  | none =>
    cases referrer with
    | anonymous => rfl
    | file path =>
      change path.resolve specifier.toString = none at target
      have plan (session : Session Nat) : session.plan (.file path) specifier.toString =
          (.refuse (.unresolvableSpecifier specifier.toString path.text), session) := by
        simp only [Session.plan, target]
      rw [value?_of_ok (resolve_eq (plan clean)), value?_of_ok (resolve_eq (plan session))]
  | some path =>
    cases known : session.record? path with
    | some record =>
      have plan := session.plan_of_target target
      have plan' := clean.plan_of_target target
      rw [Session.planPath_of_known known] at plan
      rw [Session.planPath_of_known ((found path).trans known)] at plan'
      rw [value?_of_ok (resolve_eq plan), value?_of_ok (resolve_eq plan')]
    | none =>
      have same := content path target
      have known' := (found path).trans known
      have judged : (resolve session referrer specifier).value? worker =
          some (session.rules.outcome (Store.Source.read worker.store path).1 fault path
            worker.world.modules.size) :=
        resolve_verdict target known fun kind bytes => decided path kind bytes target
      have judged' : (resolve clean referrer specifier).value? other =
          some (clean.rules.outcome (Store.Source.read other.store path).1 fault path
            other.world.modules.size) := by
        refine resolve_verdict target known' fun kind bytes => ?_
        rw [rules, same]
        exact decided path kind bytes target
      rw [judged, judged', rules, same, modules]

/-- An import that fails leaves the records, the CommonJS paths and the loads under way as they were, and
the paths that imports named but for its own. In every session that has done nothing but to build and to
run a module, or any sequence of deeds, no load is left under way and the rules are the same. If the
loader of a file comes to the same in every world, what a path without a record comes to is the verdict
on the rules, the path and what the file holds at the moment; so that it is the same in another session
with the same rules and records, whatever had failed before in either of them. -/
theorem failed_imports_leave_no_trace :
    (∀ (worker : Worker σ) (session : Session Nat) (referrer : Origin) (specifier : Text.Units),
      worker.session = some session →
        ∃ result after, importModule referrer specifier worker = .ok result after ∧
          ∀ reason, result = .error reason →
            ∃ error next,
              (resolve session referrer specifier).value? worker = some (.error error) ∧
              after.session = some next ∧
              session.Unmarked next (referrer.target specifier.toString) ∧
              next.failures = session.failures ++ [error] ∧
              after.world.modules.size = worker.world.modules.size) ∧
      (∀ (blueprint : Blueprint) (globals : Globals) (host : Host σ) (module : BuiltModule),
        host.session.loading = [] → (blueprint.buildModule globals host).1 = .ok module →
          ∀ uses, ∃ session,
            (BuiltModule.after (module, (blueprint.buildModule globals host).2) uses).2.session =
              session ∧ session.rules = host.session.rules ∧ session.loading = []) ∧
      (∀ (start : Worker (Store.Watched σ)) (session : Session Nat) (deeds : List (Worker.Deed σ)),
        start.session = some session → session.loading = [] →
          ∃ later, (start.after deeds).session = some later ∧ later.rules = session.rules ∧
            later.loading = []) ∧
      (∀ (worker : Worker σ) (session : Session Nat) (referrer : Origin) (specifier : Text.Units)
        (path : Path) (fault : Kind.Supported → Bytes → Option Error),
        referrer.target specifier.toString = some path → session.record? path = none →
          (∀ kind bytes, session.rules.classify path = some (.supported kind) →
            (Store.Source.read worker.store path).1 = .ok bytes →
              Loader.Decides path kind bytes (fault kind bytes)) →
            (resolve session referrer specifier).value? worker =
              some (session.rules.outcome (Store.Source.read worker.store path).1 fault path
                worker.world.modules.size)) ∧
      (∀ (worker other : Worker σ) (session clean : Session Nat) (referrer : Origin)
        (specifier : Text.Units) (fault : Kind.Supported → Bytes → Option Error),
        clean.rules = session.rules → clean.records = session.records →
          other.world.modules.size = worker.world.modules.size →
            (∀ path, referrer.target specifier.toString = some path →
              (Store.Source.read other.store path).1 = (Store.Source.read worker.store path).1) →
              (∀ path kind bytes, referrer.target specifier.toString = some path →
                session.rules.classify path = some (.supported kind) →
                  (Store.Source.read worker.store path).1 = .ok bytes →
                    Loader.Decides path kind bytes (fault kind bytes)) →
                (resolve clean referrer specifier).value? other =
                  (resolve session referrer specifier).value? worker) := by
  refine ⟨fun worker session referrer specifier here => ?_,
    fun blueprint globals host module idle built uses => ?_, fun start session deeds here idle => ?_,
    fun worker session referrer specifier path fault target unknown decided => ?_,
    fun worker other session clean referrer specifier fault rules records modules content decided =>
      ?_⟩
  · obtain ⟨answered, after, result, planned, done, resolved, answers, cases⟩ :=
      importModule_ends here referrer specifier
    refine ⟨answered, after, done, fun reason failed => ?_⟩
    rcases cases with ⟨record, _, succeeded, _⟩ | ⟨error, _, rfl, _, left, kept⟩
    · rw [failed] at succeeded
      contradiction
    · refine ⟨error, planned.fail error, resolved, left, answers.unmarked.fail error, ?_, kept⟩
      rw [Session.fail, answers.failures_eq]
  · have continues := Blueprint.session_continues built uses
    exact ⟨_, rfl, continues.rules, continues.loading idle⟩
  · obtain ⟨later, left, continues⟩ := Worker.after_carries (K := Session.Continues)
      (fun session next bound => Session.eq_of_bind bound ▸ ⟨rfl, id, id⟩) start deeds session here
    exact ⟨later, left, continues.rules, continues.loading idle⟩
  · exact resolve_verdict target unknown decided
  · exact resolve_congr rules records modules content decided

/-- A file that is missing, then there with a fault, and then without one, is loaded by its third
import. -/
theorem resolve_of_retry :
    let rules := (Rules.compile [⟨"ESModule", ["**/*.mjs"]⟩]).toOption.getD []
    let index : Origin := .file ⟨"/w/index.mjs"⟩
    let holds (text : String) (worker : Worker (Store.Watched Store.Recording)) :=
      { worker with
        store := { store := { inner := .ofList [(⟨"/w/a.mjs"⟩, text.toUTF8.toList)] } } }
    let start : Worker (Store.Watched Store.Recording) :=
      { world := { objects := #[], scopes := #[] }, session := some { rules }
        store := { store := { inner := {} } } }
    let deeds : List (Worker.Deed Store.Recording) :=
      [.resolve index (Text.Units.ofString "./a.mjs"), .change (holds "export const = 1;"),
        .resolve index (Text.Units.ofString "./a.mjs"), .change (holds "export const a = 1;")]
    ∃ session, (start.after deeds).session = some session ∧
      session.failures.map Error.kindName = ["Read", "Compile"] ∧
      (resolve session index (Text.Units.ofString "./a.mjs")).value? (start.after deeds) =
        some (.ok 0) := by
  intro rules index holds start deeds
  obtain ⟨_, _, endures, _⟩ := failed_imports_leave_no_trace (σ := Store.Recording)
  obtain ⟨_, _, _, judged, _⟩ := failed_imports_leave_no_trace (σ := Store.Watched Store.Recording)
  obtain ⟨session, here, same, _⟩ := endures start { rules } deeds rfl rfl
  dsimp only at same
  have noted : (start.after deeds).session.map (·.failures.map Error.kindName) =
      some ["Read", "Compile"] := by decide +kernel
  have unknown : (start.after deeds).record? ⟨"/w/a.mjs"⟩ = none := by decide +kernel
  have classified : rules.classify ⟨"/w/a.mjs"⟩ = some (.supported .esModule) := by decide +kernel
  have sound : rules.verdict (Store.Source.read (start.after deeds).store ⟨"/w/a.mjs"⟩).1
      (fun kind bytes => kind.fault? ⟨"/w/a.mjs"⟩ bytes) ⟨"/w/a.mjs"⟩ = none := by decide +kernel
  have modules : (start.after deeds).world.modules.size = 0 := by decide +kernel
  have target : index.target (Text.Units.ofString "./a.mjs").toString = some ⟨"/w/a.mjs"⟩ := by
    decide +kernel
  generalize start.after deeds = worker at here noted unknown sound modules ⊢
  clear_value rules
  rw [here, Option.map_some, Option.some.injEq] at noted
  rw [Worker.record?, here, Option.bind_some] at unknown
  refine ⟨session, here, noted, ?_⟩
  have resolved := judged worker session index _ ⟨"/w/a.mjs"⟩
    (fun kind bytes => kind.fault? ⟨"/w/a.mjs"⟩ bytes) target unknown fun kind bytes chosen _ => ?_
  · rw [Rules.outcome, same, sound, modules] at resolved
    exact resolved
  rw [same, classified] at chosen
  obtain rfl := Kind.supported.inj (Option.some.inj chosen)
  refine Loader.decides_fault? fun common => ?_
  contradiction

end Hosted
end Isolate
