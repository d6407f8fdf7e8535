import Isolate.Proofs.Blueprint.Law
import Isolate.Proofs.Diagnostic.Traces
import Isolate.Proofs.Script.Refusals
import Isolate.Proofs.Worker.Wrapped

/-!
# Runs that end with a refusal

A run that ends with the error of a refusal to compile a string fails as one that the policy forbade, if
the host refused in that run and knows where. Refusals of earlier runs and errors that only look like
one do not count. The place that is named is that of the last refusal, which need not be the one whose
error has escaped.
-/

namespace Isolate

open Script

/-- A thrown value is an error of the kind that a refusal fails with and says what it says; and no
code has seen it, or the host gets all that it looks at of it. -/
def Script.World.ThrowsRefusal (w : World) (abrupt : Abrupt) : Prop :=
  ∃ id place made, abrupt = .thrown (.object id) place ∧ (w.object id).nature = .error .eval made ∧
    (w.read? id "message").bind messageText? = some Error.refusalText ∧
    ((w.object id).fresh ∨ w.isLegible id .eval)

theorem Script.World.isRefusal_iff {w : World} {abrupt : Abrupt} :
    w.isRefusal abrupt ↔ w.ThrowsRefusal abrupt := by
  constructor
  · intro told
    unfold isRefusal at told
    split at told
    next value place =>
      split at told
      next native known =>
        obtain ⟨kind, message⟩ := (Bool.and_eq_true _ _).mp told
        cases value with
        | object id =>
          obtain ⟨nature, said, seen⟩ := native?_eq_some_iff.mp known
          rw [of_decide_eq_true kind] at nature seen
          rw [of_decide_eq_true message] at said
          exact ⟨id, place, native.site, rfl, nature, said, seen⟩
        | undefined | null | bool | number | string => contradiction
      next => contradiction
    next => contradiction
  · rintro ⟨id, place, made, rfl, nature, said, seen⟩
    have known : w.native? (.object id) = some ⟨.eval, Error.refusalText, made⟩ :=
      native?_eq_some_iff.mpr ⟨nature, said, seen⟩
    simp [isRefusal, known]

/-- The place where a string was to be compiled, if it is known. -/
def Script.Refusal.location? (refusal : Refusal) (origin : String) : Option Location :=
  refusal.site.map (·.location origin)

/-- The place of the last refusal, if there is one and the place is known. -/
def Script.lastLocation? (made : List Refusal) (origin : String) : Option Location :=
  made.head?.bind (·.location? origin)

/-- A failure of code since some refusals were made is that of the last one, at its place, or it is a
failure at run time. -/
theorem Error.ofFailure_eq {w : World} {made before : List Refusal}
    (refusals : w.refusals = made ++ before) (abrupt : Abrupt) (origin : String) :
    Error.ofFailure w abrupt origin before.length =
      match lastLocation? made origin, w.isRefusal abrupt with
      | some location, true => .codeGenerationDisallowed location
      | _, _ =>
        .runtime (headline (w.describeFailure abrupt))
          (Diagnostic.runtimeLocation (w.diagnostic abrupt).toList origin) := by
  unfold ofFailure
  rw [refusals, List.length_append]
  cases made with
  | nil => simp [lastLocation?]
  | cons last earlier =>
    have more : before.length < (last :: earlier).length + before.length := by simp
    rw [if_pos more]
    simp only [List.cons_append, List.head?_cons, Option.bind_some, lastLocation?,
      Refusal.location?]
    cases last.site <;> cases w.isRefusal abrupt <;> rfl

/-- What a failure of code is reported as: a refusal exactly if it throws the error of one and the place
of the last one is known, and a failure at run time otherwise. -/
structure Error.Reports (w : World) (abrupt : Abrupt) (made : List Refusal) (e : Error) : Prop where
  refusal : (∃ location, e = .codeGenerationDisallowed location) ↔
    w.ThrowsRefusal abrupt ∧ ∃ last earlier, made = last :: earlier ∧ last.site.isSome
  runtime : (∃ location, e = .codeGenerationDisallowed location) ∨
    ∃ message location, e = .runtime message location

theorem Error.reports_ofFailure {w : World} {made before : List Refusal}
    (refusals : w.refusals = made ++ before) (abrupt : Abrupt) (origin : String) :
    Error.Reports w abrupt made (.ofFailure w abrupt origin before.length) := by
  have known : (lastLocation? made origin).isSome ↔
      ∃ last earlier, made = last :: earlier ∧ last.site.isSome := by
    cases made with
    | nil => simp [lastLocation?]
    | cons last earlier => simp [lastLocation?, Refusal.location?]
  rw [ofFailure_eq refusals]
  constructor
  · rw [← known, ← World.isRefusal_iff]
    split
    next location here throws => simp [here, throws]
    next absent =>
      constructor
      · rintro ⟨location, clash⟩
        contradiction
      · rintro ⟨throws, here⟩
        obtain ⟨location, here⟩ := Option.isSome_iff_exists.mp here
        exact absurd throws (absent location here)
  · split
    · exact .inl ⟨_, rfl⟩
    · exact .inr ⟨_, _, rfl⟩

theorem Error.Reports.mapLocation {w : World} {abrupt : Abrupt} {made : List Refusal} {e : Error}
    (reports : Error.Reports w abrupt made e) (f : Location → Location) :
    Error.Reports w abrupt made (e.mapLocation f) := by
  have same : (∃ location, e.mapLocation f = .codeGenerationDisallowed location) ↔
      ∃ location, e = .codeGenerationDisallowed location := by cases e <;> simp [Error.mapLocation]
  refine ⟨same.trans reports.refusal, ?_⟩
  rcases reports.runtime with refused | ⟨message, location, rfl⟩
  · exact .inl (same.mpr refused)
  · exact .inr ⟨message, f location, rfl⟩

/-- A text tells of a failure that was noted. -/
def Session.Tells {ρ : Type} (session : Session ρ) (text : List Char) : Prop :=
  ∃ e ∈ session.failures, Text.contains text e.describe.toList

/-- The failure of an import is no refusal. -/
theorem Error.IsImport.ne_refusal {e : Error} (load : e.IsImport) (location : Location) :
    e ≠ .codeGenerationDisallowed location := by
  rintro rfl
  rcases load with phase | phase | phase <;> contradiction

namespace BuiltModule

variable {σ : Type}

/-- A run is blamed on a failure that its diagnostic tells of, or it is a failure of its code, in the
coordinates of the file. -/
theorem failureOf_cases {worker : Worker σ} {session : Session Nat} (here : worker.session = some session)
    (abrupt : Abrupt) (label : String) (refused : Nat) :
    (∃ e ∈ session.failures, session.Tells (worker.world.diagnostic abrupt).toList ∧
        (failureOf worker abrupt label refused).1 = e) ∨
      ¬session.Tells (worker.world.diagnostic abrupt).toList ∧
        (failureOf worker abrupt label refused).1 =
          (Error.ofFailure worker.world abrupt label refused).mapLocation session.unwrapLocation := by
  rw [failureOf, here]
  dsimp only
  rw [Session.takeFailure]
  cases found : session.failures.find? fun e =>
      Text.contains (worker.world.diagnostic abrupt).toList e.describe.toList with
  | some e =>
    have told := List.find?_some found
    exact .inl ⟨e, List.mem_of_find?_eq_some found, ⟨e, List.mem_of_find?_eq_some found, told⟩, rfl⟩
  | none =>
    refine .inr ⟨?_, rfl⟩
    rintro ⟨e, noted, told⟩
    exact List.find?_eq_none.mp found e noted told

end BuiltModule

/-- In a new world nothing was refused, and every world that grows out of it has refusals with distinct
errors. -/
theorem Blueprint.refuses_of_follows {blueprint : Blueprint} {w w' : World} {made : List Refusal}
    (began : blueprint.emptyWorld.Follows w) (refuses : w.Refuses w' made) :
    (blueprint.policy.allowCodeGeneration → made = []) ∧
      w'.refusals.Pairwise fun r r' => r.error ≠ r'.error := by
  obtain ⟨before, grown⟩ := began
  refine ⟨fun allowed => refuses.permitted (grown.allows.trans allowed), ?_⟩
  have all := grown.trans refuses
  have refusals : w'.refusals = made ++ before := by
    rw [all.refusals, emptyWorld, World.initial, List.append_nil]
  exact refusals ▸ all.distinct

/-- A run of a script makes some refusals, and what escapes from it is reported by them. -/
theorem BuiltScript.run_reports (script : BuiltScript) :
    ∃ made, script.world.Refuses script.run.2.world made ∧
      ∀ e, script.run.1 = .error e →
        ∃ abrupt worker, script.program script.worker = .error abrupt worker ∧
          script.world.Refuses worker.world made ∧
          e = .ofFailure worker.world abrupt script.label script.world.refusals.length := by
  obtain ⟨made, refuses⟩ := script.run_obeys (R := World.Follows)
  refine ⟨made, refuses, fun e failed => ?_⟩
  rcases script.run_cases with ⟨abrupt, worker, ended, told, left⟩ | ⟨value, worker, _, done, _⟩
  · rw [left] at refuses
    refine ⟨abrupt, worker, ended, ?_, Except.error.inj (failed.symm.trans told)⟩
    exact ⟨refuses.refusals, refuses.allows, refuses.objects, refuses.permitted, refuses.fresh,
      refuses.distinct⟩
  · rw [done] at failed
    contradiction

/-- A run of a module makes some refusals. What escapes from the evaluation is reported by them unless
the diagnostic tells of a failed import, and any other failure is one of reading the exports. -/
theorem BuiltModule.run_reports {σ : Type} [Store.Source σ] (module : BuiltModule) (host : Host σ)
    (imports : ∀ e ∈ host.session.failures, e.IsImport) :
    ∃ made, module.world.Refuses (run.{0} module host).2.1.world made ∧
      ∀ e, (run.{0} module host).1 = .error e →
        (∃ abrupt worker session,
          module.evaluate (host.worker module.world) = .error abrupt worker ∧
            module.world.Refuses worker.world made ∧ worker.session = some session ∧
            ((session.Tells (worker.world.diagnostic abrupt).toList ∧ e.IsImport) ∨
              ¬session.Tells (worker.world.diagnostic abrupt).toList ∧
                e = (Error.ofFailure worker.world abrupt module.label
                  module.world.refusals.length).mapLocation session.unwrapLocation)) ∨
          (∃ worker, module.evaluate (host.worker module.world) = .ok ⟨⟩ worker) ∧
            ∃ message, e = .engine message := by
  obtain ⟨made, refuses⟩ := module.run_obeys (R := World.Follows) host
  refine ⟨made, refuses, fun e failed => ?_⟩
  rcases module.run_cases host with ⟨abrupt, worker, ended, told, left⟩ | ⟨worker, ended, _, done⟩
  · obtain ⟨session, here, continues⟩ := module.obeys_evaluate
      (S := Worker.Carries Session.Continues) (host.worker module.world) host.session rfl
    rw [left_of_error ended] at here
    rw [left] at refuses
    obtain rfl := Except.error.inj (failed.symm.trans told)
    refine .inl ⟨abrupt, worker, session, ended, refuses, here, ?_⟩
    rcases failureOf_cases here abrupt module.label module.world.refusals.length with
      ⟨f, noted, tells, same⟩ | ⟨silent, same⟩
    · exact .inl ⟨tells, same ▸ continues.failures imports f noted⟩
    · exact .inr ⟨silent, same⟩
  · rcases done with done | ⟨message, done⟩
    · rw [done] at failed
      contradiction
    · exact .inr ⟨⟨worker, ended⟩, message, Except.error.inj (failed.symm.trans done)⟩

section Runs

variable {σ : Type} [Store.Source σ]

/-- Whatever ran before, a run fails as one that the policy forbade exactly if its diagnostic tells of no
failed import, what escapes is the error of a refusal or looks like one and the host can read all of it
that it looks at, the host refused to compile a string in this very run, and the place of the last such
refusal is known. If no import is told of it is a failure at run time otherwise, unless it is one of
reading the exports. Where the policy allows compilation nothing is ever refused. -/
theorem refusals_never_leak :
    (∀ (blueprint : Blueprint) (globals : Globals) (script : BuiltScript),
      blueprint.buildScript globals = .ok script → ∀ n, ∃ made,
        (script.after n).world.Refuses (script.after (n + 1)).world made ∧
          (blueprint.policy.allowCodeGeneration → made = []) ∧
          ∀ e, (script.after n).run.1 = .error e →
            ∃ abrupt worker, (script.after n).program (script.after n).worker = .error abrupt worker ∧
              (script.after n).world.Refuses worker.world made ∧
              ((∃ location, e = .codeGenerationDisallowed location) ↔
                worker.world.ThrowsRefusal abrupt ∧
                  ∃ last earlier, made = last :: earlier ∧ last.site.isSome) ∧
              ((∃ location, e = .codeGenerationDisallowed location) ∨
                ∃ message location, e = .runtime message location)) ∧
      ∀ (blueprint : Blueprint) (globals : Globals) (host : Host σ) (module : BuiltModule),
        host.session.failures = [] → (blueprint.buildModule globals host).1 = .ok module →
          ∀ (uses : List (BuiltModule.Use σ)) (state : BuiltModule × Host σ),
            BuiltModule.after (module, (blueprint.buildModule globals host).2) uses = state →
              ∃ made,
                state.1.world.Refuses (BuiltModule.run.{0} state.1 state.2).2.1.world made ∧
                (blueprint.policy.allowCodeGeneration → made = []) ∧
                ∀ e, (BuiltModule.run.{0} state.1 state.2).1 = .error e →
                  (∃ abrupt worker session,
                    state.1.evaluate (state.2.worker state.1.world) = .error abrupt worker ∧
                      state.1.world.Refuses worker.world made ∧ worker.session = some session ∧
                      ((∃ location, e = .codeGenerationDisallowed location) ↔
                        ¬session.Tells (worker.world.diagnostic abrupt).toList ∧
                          worker.world.ThrowsRefusal abrupt ∧
                          ∃ last earlier, made = last :: earlier ∧ last.site.isSome) ∧
                      (session.Tells (worker.world.diagnostic abrupt).toList ∧ e.IsImport ∨
                        (∃ location, e = .codeGenerationDisallowed location) ∨
                        ∃ message location, e = .runtime message location)) ∨
                    (∃ worker, state.1.evaluate (state.2.worker state.1.world) = .ok ⟨⟩ worker) ∧
                      ∃ message, e = .engine message := by
  constructor
  · intro blueprint globals script built n
    obtain ⟨made, refuses, ends⟩ := (script.after n).run_reports
    have began : blueprint.emptyWorld.Follows (script.after n).world :=
      IsTrans.trans _ _ _ (Blueprint.buildScript_obeys built) (script.after_obeys n)
    refine ⟨made, refuses, (Blueprint.refuses_of_follows began refuses).1, fun e failed => ?_⟩
    obtain ⟨abrupt, worker, ended, refuses, rfl⟩ := ends e failed
    have reports := Error.reports_ofFailure refuses.refusals abrupt (script.after n).label
    exact ⟨abrupt, worker, ended, refuses, reports.refusal, reports.runtime⟩
  · rintro blueprint globals host module fresh built uses state rfl
    have imports := (Blueprint.session_continues built uses).failures (by simp [fresh])
    have began := IsTrans.trans _ _ _ (Blueprint.buildModule_obeys (R := World.Follows) built)
      (BuiltModule.after_obeys (module, (blueprint.buildModule globals host).2) uses)
    generalize BuiltModule.after (module, (blueprint.buildModule globals host).2) uses = state at *
    obtain ⟨made, refuses, ends⟩ := BuiltModule.run_reports state.1 state.2 imports
    refine ⟨made, refuses, (Blueprint.refuses_of_follows began refuses).1, fun e failed => ?_⟩
    rcases ends e failed with ⟨abrupt, worker, session, ended, refuses, here, cases⟩ | read
    · refine .inl ⟨abrupt, worker, session, ended, refuses, here, ?_⟩
      rcases cases with ⟨tells, load⟩ | ⟨silent, rfl⟩
      · refine ⟨⟨fun ⟨location, same⟩ => absurd same (load.ne_refusal location), fun ⟨silent, _⟩ =>
          absurd tells silent⟩, .inl ⟨tells, load⟩⟩
      -- A failure that is not told of is that of the code; unwrapping its location leaves its kind.
      · have reports := (Error.reports_ofFailure refuses.refusals abrupt state.1.label).mapLocation
          session.unwrapLocation
        exact ⟨reports.refusal.trans (by simp [silent]), .inr reports.runtime⟩
    · exact .inr read

/-- The second run throws what the first one was refused with, and is not forbidden anything. -/
theorem runtime_of_old_refusal :
    let blueprint : Blueprint :=
      { source := "var kept; if (kept) throw kept; try \x7b eval('1') \x7d catch (e) \x7b kept = e \x7d"
        origin := .anonymous }
    ∃ script message location, blueprint.buildScript [] = .ok script ∧
      (script.after 1).world.refusals.length = 1 ∧
      (script.after 1).run.1 = .error (.runtime message location) := by
  intro blueprint
  have runs : (blueprint.buildScript []).toOption.map (fun script =>
      ((script.after 1).world.refusals.length, (script.after 1).run.1.isOk,
        (script.after 2).world.refusals.length)) = some (1, false, 1) := by decide +kernel
  cases built : blueprint.buildScript [] with
  | error e =>
    rw [built] at runs
    contradiction
  | ok script =>
    rw [built, Except.toOption, Option.map_some, Option.some.injEq, Prod.mk.injEq, Prod.mk.injEq] at runs
    obtain ⟨kept, fails, still⟩ := runs
    obtain ⟨made, refuses, _, ends⟩ :=
      (refusals_never_leak (σ := Store.Recording)).1 blueprint [] script built 1
    have none : made = [] := by
      rw [refuses.refusals, List.length_append, kept] at still
      exact List.length_eq_zero_iff.mp (by omega)
    cases failed : (script.after 1).run.1 with
    | ok value =>
      rw [failed] at fails
      contradiction
    | error e =>
      obtain ⟨_, _, _, _, forbidden, ⟨location, rfl⟩ | ⟨message, location, rfl⟩⟩ := ends e failed
      · obtain ⟨_, last, earlier, some, _⟩ := forbidden.mp ⟨location, rfl⟩
        rw [none] at some
        contradiction
      · exact ⟨script, message, location, rfl, kept, failed⟩

/-- What escapes is the error of the only refusal, an `EvalError` that says so, and the place of the
refusal is known; but the code has put a number in place of the error's constructor, so the host cannot
tell which kind of error it is. -/
theorem overwritten_constructor_hides_refusal :
    let blueprint : Blueprint :=
      { source := "try \x7b eval('1') \x7d catch (e) \x7b e.constructor = 0; throw e; \x7d"
        origin := .anonymous }
    (match blueprint.buildScript [] with
      | .error _ => none
      | .ok script =>
        match script.program script.worker with
        | .error (.thrown (.object id) _) worker =>
          let made := worker.world.refusals.map fun r =>
            match r.error with
            | .object id' => (id' == id, r.location? script.label)
            | _ => (false, none)
          match (worker.world.object id).nature, script.run.1 with
          | .error kind _, .error e =>
            some (made, kind, (worker.world.read? id "message").bind messageText?, e)
          | _, _ => none
        | _ => none) =
      some ([(true, some ⟨"<anonymous>", some 1, some 11⟩)], .eval, some Error.refusalText,
        .runtime s!"EvalError: {Error.refusalText}" ⟨"<anonymous>", some 1, some 56⟩) := by
  decide +kernel

end Runs

/-- A failure that is reported as a refusal is placed where the last one was. -/
theorem Error.lastLocation?_of_ofFailure {w : World} {made before : List Refusal}
    (refusals : w.refusals = made ++ before) {abrupt : Abrupt} {origin : String}
    {f : Location → Location} {location : Location}
    (refused : (Error.ofFailure w abrupt origin before.length).mapLocation f =
      .codeGenerationDisallowed location) :
    (lastLocation? made origin).map f = some location ∧
      lastLocation? w.refusals origin = lastLocation? made origin := by
  rw [ofFailure_eq refusals] at refused
  split at refused
  next last here throws =>
    rw [here]
    refine ⟨congrArg some (Error.codeGenerationDisallowed.inj refused), ?_⟩
    cases made with
    | nil => contradiction
    | cons last earlier =>
      rw [refusals]
      exact here
  next => contradiction

/-- The place of the last refusal is that of an earlier one exactly if nothing was refused after that one,
or the last place is the same. -/
theorem Script.location?_eq_last_iff {refusals later earlier : List Refusal} {r : Refusal}
    {origin : String} {f : Location → Location} {location : Location}
    (last : (lastLocation? refusals origin).map f = some location)
    (order : refusals = later ++ r :: earlier) :
    (r.location? origin).map f = some location ↔
      ∀ next, later.head? = some next →
        (next.location? origin).map f = (r.location? origin).map f := by
  rw [← last, order]
  cases later with
  | nil => simp [lastLocation?]
  | cons next later => simp [lastLocation?, eq_comm]

section Places

variable {σ : Type} [Store.Source σ]

/-- A run that fails as one that the policy forbade names the place of the last string that the host
refused to compile in it. No two refusals have the same error. The place is that of the refusal whose
error has escaped exactly if the host refused nothing after it, or the last time at the same place. -/
theorem last_refusal_is_blamed :
    (∀ (blueprint : Blueprint) (globals : Globals) (script : BuiltScript),
      blueprint.buildScript globals = .ok script → ∀ n location,
        (script.after n).run.1 = .error (.codeGenerationDisallowed location) →
          ∃ abrupt worker made,
            (script.after n).program (script.after n).worker = .error abrupt worker ∧
              (script.after n).world.Refuses worker.world made ∧
              lastLocation? made (script.after n).label = some location ∧
              (worker.world.refusals.Pairwise fun r r' => r.error ≠ r'.error) ∧
              ∀ later r earlier place, worker.world.refusals = later ++ r :: earlier →
                abrupt = .thrown r.error place →
                  (r.location? (script.after n).label = some location ↔
                    ∀ next, later.head? = some next →
                      next.location? (script.after n).label =
                        r.location? (script.after n).label)) ∧
      ∀ (blueprint : Blueprint) (globals : Globals) (host : Host σ) (module : BuiltModule),
        host.session.failures = [] → (blueprint.buildModule globals host).1 = .ok module →
          ∀ (uses : List (BuiltModule.Use σ)) (state : BuiltModule × Host σ),
            BuiltModule.after (module, (blueprint.buildModule globals host).2) uses = state →
              ∀ location,
                (BuiltModule.run.{0} state.1 state.2).1 =
                  .error (.codeGenerationDisallowed location) →
                  ∃ abrupt worker session made,
                    state.1.evaluate (state.2.worker state.1.world) = .error abrupt worker ∧
                      state.1.world.Refuses worker.world made ∧ worker.session = some session ∧
                      (lastLocation? made state.1.label).map session.unwrapLocation =
                        some location ∧
                      (worker.world.refusals.Pairwise fun r r' => r.error ≠ r'.error) ∧
                      ∀ later r earlier place, worker.world.refusals = later ++ r :: earlier →
                        abrupt = .thrown r.error place →
                          ((r.location? state.1.label).map session.unwrapLocation =
                              some location ↔
                            ∀ next, later.head? = some next →
                              (next.location? state.1.label).map session.unwrapLocation =
                                (r.location? state.1.label).map session.unwrapLocation) := by
  constructor
  · intro blueprint globals script built n location failed
    obtain ⟨made, _, ends⟩ := (script.after n).run_reports
    obtain ⟨abrupt, worker, ended, refuses, same⟩ := ends _ failed
    have began : blueprint.emptyWorld.Follows (script.after n).world :=
      IsTrans.trans _ _ _ (Blueprint.buildScript_obeys built) (script.after_obeys n)
    have refused : (Error.ofFailure worker.world abrupt (script.after n).label
        (script.after n).world.refusals.length).mapLocation id =
          .codeGenerationDisallowed location := by rw [← same, Error.mapLocation, id]
    obtain ⟨last, all⟩ := Error.lastLocation?_of_ofFailure refuses.refusals refused
    refine ⟨abrupt, worker, made, ended, refuses, by simpa using last,
      (Blueprint.refuses_of_follows began refuses).2, fun later r earlier place order _ => ?_⟩
    rw [← all] at last
    simpa using location?_eq_last_iff last order
  · rintro blueprint globals host module fresh built uses state rfl location failed
    have imports := (Blueprint.session_continues built uses).failures (by simp [fresh])
    have began := IsTrans.trans _ _ _ (Blueprint.buildModule_obeys (R := World.Follows) built)
      (BuiltModule.after_obeys (module, (blueprint.buildModule globals host).2) uses)
    generalize BuiltModule.after (module, (blueprint.buildModule globals host).2) uses = state at *
    obtain ⟨made, _, ends⟩ := BuiltModule.run_reports state.1 state.2 imports
    rcases ends _ failed with ⟨abrupt, worker, session, ended, refuses, here, cases⟩ |
      ⟨_, message, clash⟩
    · rcases cases with ⟨_, load⟩ | ⟨_, same⟩
      · exact absurd rfl (load.ne_refusal location)
      · obtain ⟨last, all⟩ := Error.lastLocation?_of_ofFailure refuses.refusals same.symm
        refine ⟨abrupt, worker, session, made, ended, refuses, here, last,
          (Blueprint.refuses_of_follows began refuses).2, fun later r earlier place order _ => ?_⟩
        rw [← all] at last
        exact location?_eq_last_iff last order
    · contradiction

/-- The first refused call made the error that escapes, and the second one is named. -/
theorem blames_later_refusal :
    let blueprint : Blueprint :=
      { source :=
          "let first;\ntry \x7b eval('1') \x7d catch (e) \x7b first = e \x7d\n" ++
            "try \x7b eval('2') \x7d catch (e) \x7b\x7d\nthrow first;"
        origin := .anonymous }
    (match blueprint.buildScript [] with
      | .error _ => none
      | .ok script =>
        match script.program script.worker with
        | .error (.thrown (.object id) _) worker =>
          let made := worker.world.refusals.filter fun r =>
            match r.error with
            | .object id' => id' = id
            | _ => false
          match script.run.1 with
          | .error e => some (made.map (·.location? script.label), e)
          | .ok _ => none
        | _ => none) =
      some ([some ⟨"<anonymous>", some 2, some 11⟩],
        .codeGenerationDisallowed ⟨"<anonymous>", some 3, some 11⟩) := by
  decide +kernel

end Places

end Isolate
