import Isolate.Blueprint.Module
import Isolate.Proofs.Diagnostic.Traces
import Isolate.Proofs.Script.Members
import Isolate.Proofs.Worker.Imports

/-!
# The failure that a run is blamed on

An import that fails makes an error that says the failure in words, and a run that ends with such an
error looks for the failure among those that were noted. It takes the earliest one whose words occur in
what the error says, which is another one when a failure that code has dealt with is worded by a
piece of the text.
-/

namespace Isolate

open Script

namespace Error

/-- Two failures that no report can tell apart by what they say, their kind and their path. -/
def Alike (e f : Error) : Prop :=
  e.describe = f.describe ∧ e.kindName = f.kindName ∧ e.path? = f.path?

instance (e f : Error) : Decidable (e.Alike f) :=
  inferInstanceAs (Decidable (_ ∧ _ ∧ _))

theorem Alike.refl (e : Error) : e.Alike e := ⟨rfl, rfl, rfl⟩

end Error

namespace Session

variable {ρ : Type} {session : Session ρ} {f : Error} {text : List Char}

/-- The failures that were noted before the first one that is like `f`. -/
def before (session : Session ρ) (f : Error) : List Error :=
  session.failures.takeWhile fun e => ¬e.Alike f

/-- The failure that a text tells of is like one that it tells of exactly when the text tells of none
that was noted before. -/
theorem find?_alike_iff {failures : List Error} (noted : f ∈ failures)
    (told : Text.contains text f.describe.toList) :
    (∃ e, failures.find? (fun e => Text.contains text e.describe.toList) = some e ∧ e.Alike f) ↔
      ∀ e ∈ failures.takeWhile fun e => ¬e.Alike f, ¬Text.contains text e.describe.toList := by
  induction failures with
  | nil => contradiction
  | cons first rest ih =>
    by_cases alike : first.Alike f
    · have tells : Text.contains text first.describe.toList := by rwa [alike.1]
      simp [tells, alike]
    · have later : f ∈ rest :=
        (List.mem_cons.mp noted).resolve_left fun same => alike (same ▸ .refl f)
      by_cases tells : Text.contains text first.describe.toList
      · simp [tells, alike]
      · simpa [tells, alike] using ih later

/-- A text that tells of a noted failure makes the session take one like it exactly when the text tells
of none that was noted before. -/
theorem takeFailure_alike_iff (noted : f ∈ session.failures)
    (told : Text.contains text f.describe.toList) (fallback : Bool) :
    ∃ e, session.takeFailure text fallback = (some e, session.clearFailures) ∧
      (e.Alike f ↔ ∀ e ∈ session.before f, ¬Text.contains text e.describe.toList) := by
  rw [before, ← find?_alike_iff noted told]
  have found : (session.failures.find? fun e => Text.contains text e.describe.toList).isSome :=
    List.find?_isSome.mpr ⟨f, noted, told⟩
  obtain ⟨e, here⟩ := Option.isSome_iff_exists.mp found
  refine ⟨e, by rw [takeFailure, here]; rfl, ?_⟩
  simp [here]

end Session

namespace Script.World

/-- A thrown value is an error whose own message is a text. -/
def Says (w : World) (value : Value) (text : String) : Prop :=
  ∃ id kind site property, value = .object id ∧ (w.object id).nature = .error kind site ∧
    Properties.get? (w.object id).properties (Text.Units.ofString "message") = some property ∧
    property.value = .string (Text.Units.ofString text)

/-- A member that an error has of its own can be read. -/
theorem read?_own {w : World} {id : ObjectId} {kind : ErrorKind} {made : Option Site} {name : String}
    {property : Property} (nature : (w.object id).nature = .error kind made)
    (own : Properties.get? (w.object id).properties (Text.Units.ofString name) = some property) :
    w.read? id name = some (some property.value) := by
  rw [read?, searchDepth, memberFrom_own (own ▸ ownMember?_error nature _)]

/-- An error in words holds what it says. -/
theorem infix_describeError {w : World} {id : ObjectId} (site : Option Site) :
    (w.memberText id "message" "").toList <:+: (w.describeError id site).toList := by
  have told : (w.memberText id "message" "").toList <:+: (w.describeError id none).toList := by
    rw [describeError]
    split
    · exact List.infix_rfl
    split
    next empty =>
      rw [empty]
      exact List.nil_infix
    · rw [String.toList_append]
      exact (List.suffix_append _ _).isInfix
  cases site with
  | none => exact told
  | some site =>
    rw [describeError_some, String.toList_append]
    exact told.trans (List.prefix_append _ _).isInfix

/-- So does an error in words for the host. -/
theorem infix_native (native : Native) : native.message.toList <:+: native.text.toList := by
  have told : native.message.toList <:+: native.told.toList := by
    rw [Native.told]
    split
    next empty =>
      rw [empty]
      exact List.nil_infix
    next =>
      rw [String.toList_append]
      exact (List.suffix_append _ _).isInfix
  unfold Native.text
  cases native.site with
  | none => exact told
  | some site =>
    simp only [String.toList_append, List.append_assoc]
    exact told.trans (List.prefix_append _ _).isInfix

/-- The head line of an error holds what the error says. -/
theorem Says.infix_headText {w : World} {value : Value} {text : String} (told : w.Says value text)
    (site : Option Site) : text.toList <:+: (w.headText (.thrown value site)).toList := by
  obtain ⟨id, kind, made, property, rfl, nature, own, message⟩ := told
  have described : text.toList <:+: (w.describe describeDepth (.object id)).toList := by
    have said : w.memberText id "message" "" = text := by
      rw [memberText, searchDepth, plainMember?, own]
      dsimp only
      rw [message]
      exact Text.Units.toString_ofString text
    rw [describe_error nature, ← said]
    exact infix_describeError made
  rw [headText]
  split
  next native known _ =>
    have said := (native?_eq_some_iff.mp known).2.1
    rw [read?_own nature own, message, Option.bind_some, messageText?, Text.Units.toList?_ofString,
      Option.map_some, String.ofList_toList] at said
    rw [Option.some.inj said]
    exact infix_native native
  next => exact described

/-- The diagnostic of an error holds what the error says. -/
theorem Says.contains_diagnostic {w : World} {value : Value} {text : String}
    (told : w.Says value text) (site : Option Site) :
    Text.contains (w.diagnostic (.thrown value site)).toList text.toList := by
  rw [Text.contains_iff, diagnostic, describeFailure, String.toList_append, String.toList_append]
  exact (told.infix_headText site).trans ((List.prefix_append _ _).isInfix.trans (List.suffix_append _ _).isInfix)

end Script.World

namespace Hosted

variable {σ : Type} {session : Session Nat} {referrer : Origin} {specifier : Text.Units}

/-- The error object that code sees when an import fails. -/
def errorObject (error : Error) : Object where
  proto := some (Intrinsic.errorPrototype .error).id
  nature := .error .error none
  properties :=
    [(Text.Units.ofString "message", .hidden (.string (Text.Units.ofString error.describe)))]

/-- The worker once an import has failed: the failure is noted, and made into an error for the code. -/
def failed (worker : Worker σ) (error : Error) : Worker σ :=
  { worker with
    session := worker.session.map (·.fail error)
    world :=
      { worker.world with objects := worker.world.objects.push (errorObject error), requests := [] }
    queue := worker.queue ++ worker.world.requests.map .dynamic }

theorem answer_run (worker : Worker σ) (error : Error) :
    answer (.error error) worker =
      .ok (.error (.object worker.world.objects.size)) (failed worker error) := rfl

/-- The error that code sees says the failure that was noted. -/
theorem says_of_answer {worker after : Worker σ} (here : worker.session = some session) {error : Error}
    {reason : Value} (answered : answer (.error error) worker = .ok (.error reason) after) :
    after.session = some (session.fail error) ∧ after.world.Says reason error.describe := by
  rw [answer_run] at answered
  obtain ⟨⟨⟩, rfl⟩ := EStateM.Result.ok.inj answered
  refine ⟨by rw [failed, here]; rfl, _, .error, none,
    .hidden (.string (Text.Units.ofString error.describe)), rfl, ?_, ?_, rfl⟩
  · simp [failed, errorObject, World.object]
  · simp [failed, errorObject, World.object, Properties.get?]

variable [Store.Source σ] {worker after : Worker (Store.Watched σ)}

/-- Resolving an import notes no failure yet. -/
theorem failures_resolve (worker : Worker (Store.Watched σ)) (session : Session Nat)
    (referrer : Origin) (specifier : Text.Units) :
    ∃ next, ((resolve session referrer specifier).final worker).session = some next ∧
      next.failures = session.failures := by
  cases target : referrer.target specifier.toString with
  | none =>
    obtain ⟨error, plan⟩ := session.plan_of_unnamed target
    rw [final_congr (resolve_eq plan)]
    exact ⟨session, rfl, rfl⟩
  | some path =>
    have plan := session.plan_of_target target
    rw [final_congr (resolve_eq plan)]
    cases planned : session.planPath path with
    | refuse error => exact ⟨session.refer path, rfl, rfl⟩
    | reuse record => exact ⟨session.refer path, rfl, rfl⟩
    | load path' kind =>
      have begun : ({ worker with session := some (session.refer path) } :
          Worker (Store.Watched σ)).session = some (session.refer path) := rfl
      rw [follow]
      obtain ⟨readable, after, reads, cases⟩ := loadPath_cases begun path' kind
      rcases cases with ⟨error, failed, next⟩ | ⟨abrupt, stopped, _, next⟩ |
        ⟨record, loaded, _, next⟩
      · exact ⟨_, (congrArg _ (final_of_ok failed)).trans next, rfl⟩
      · exact ⟨_, (congrArg _ (final_of_error stopped)).trans next, rfl⟩
      · refine ⟨_, (congrArg _ (final_of_ok loaded)).trans next, ?_⟩
        rw [Session.accept]
        split <;> rfl

/-- An import that fails notes its failure, and the error that code sees says it. -/
theorem says_of_importModule (here : worker.session = some session) {reason : Value}
    (failed : importModule referrer specifier worker = .ok (.error reason) after) :
    ∃ next error, after.session = some next ∧ next.failures = session.failures ++ [error] ∧
      after.world.Says reason error.describe := by
  obtain ⟨planned, left, kept⟩ := failures_resolve worker session referrer specifier
  rw [importModule_eq here] at failed
  cases resolved : resolve session referrer specifier worker with
  | error abrupt middle =>
    rw [bind_of_error resolved] at failed
    contradiction
  | ok result middle =>
    rw [bind_of_ok resolved] at failed
    rw [final_of_ok resolved] at left
    cases result with
    | ok record =>
      rw [answer_of_ok] at failed
      simp at failed
    | error error =>
      obtain ⟨next, told⟩ := says_of_answer left failed
      exact ⟨_, error, next, by rw [Session.fail, kept], told⟩

end Hosted

namespace BuiltModule

variable {σ : Type}

/-- A run that ends with an error that says a noted failure is blamed on a failure like it exactly when
the diagnostic holds the words of no failure that was noted before the first one like it. -/
theorem failureOf_alike_iff (worker : Worker σ) (session : Session Nat)
    (here : worker.session = some session) (f : Error) (noted : f ∈ session.failures) (value : Value)
    (told : worker.world.Says value f.describe) (site : Option Site) (label : String) (refused : Nat) :
    (failureOf worker (.thrown value site) label refused).1.Alike f ↔
      ∀ e ∈ session.before f,
        ¬Text.contains (worker.world.diagnostic (.thrown value site)).toList e.describe.toList := by
  obtain ⟨e, taken, alike⟩ :=
    Session.takeFailure_alike_iff noted (told.contains_diagnostic site) false
  rw [← alike, failureOf, here]
  dsimp only
  rw [taken]

/-- The words of the failure that was noted first occur in no other failure's. -/
theorem failureOf_of_apart :
    let worker : Worker Store.Recording :=
      { world :=
          { objects := #[{
              proto := none, nature := .error .error none
              properties := [(Text.Units.ofString "message",
                .hidden (.ofString "no matching module rules for /w/a.jp"))] }]
            scopes := #[] }
        session := some
          { rules := [], failures := [.noMatchingRule ⟨"/w/a.jpg"⟩, .noMatchingRule ⟨"/w/a.jp"⟩] }
        store := { inner := {} } }
    (failureOf worker (.thrown (.object 0) none) "/w/index.mjs" 0).1.Alike
      (.noMatchingRule ⟨"/w/a.jp"⟩) := by
  intro worker
  refine (failureOf_alike_iff worker _ rfl (.noMatchingRule ⟨"/w/a.jp"⟩) ?_ (.object 0) ?_ none
    "/w/index.mjs" 0).mpr ?_
  · exact List.mem_cons_of_mem _ List.mem_cons_self
  · exact ⟨0, .error, none, _, rfl, rfl, rfl, rfl⟩
  · decide +kernel

/-- A run is blamed on an import that its code has dealt with, as the path of that import is the
beginning of another one's. -/
theorem blames_handled_import :
    let escaped : Error := .noMatchingRule ⟨"/w/a.jpg"⟩
    let session : Session Nat := { rules := [], failures := [.noMatchingRule ⟨"/w/a.jp"⟩, escaped] }
    let worker : Worker Store.Recording :=
      { world :=
          { objects := #[{
              proto := none, nature := .error .error none
              properties := [(Text.Units.ofString "message", .hidden (.ofString escaped.describe))] }]
            scopes := #[] }
        session := some session
        store := { inner := {} } }
    let host : Host Store.Recording := { session := { rules := [] }, store := { inner := {} } }
    let blueprint : Blueprint :=
      { source := "try \x7b await import('./a.jp'); \x7d catch (e) \x7b\x7d await import('./a.jpg');"
        origin := .file ⟨"/w/index.mjs"⟩ }
    escaped ∈ session.failures ∧ worker.world.Says (.object 0) escaped.describe ∧
      ¬(failureOf worker (.thrown (.object 0) none) "/w/index.mjs" 0).1.Alike escaped ∧
      (match blueprint.buildModule [] host with
        | (.ok module, host) =>
          match (run.{0} module host).1 with
          | .error e => some e
          | .ok _ => none
        | (.error _, _) => none) = some (.noMatchingRule ⟨"/w/a.jp"⟩) := by
  refine ⟨by decide, ⟨0, .error, none, _, rfl, rfl, rfl, rfl⟩, by decide +kernel, ?_⟩
  decide +kernel

end BuiltModule
end Isolate
