import Isolate.Proofs.Blueprint.Failures
import Isolate.Proofs.Worker.Dormant

/-!
# Workers whose code is in no file

Code that is in no file makes only code that is in no file, and every import is asked for by some code.
So in a worker that begins with such code only, every import is refused: it is noted as a failure that
names its specifier, nothing else of the session changes, and no file is read.
-/

namespace Isolate

open Script

namespace Script.World

variable {w : World}

/-- None of the code in a world is in a file, and neither is any that waits for an import. -/
structure IsAnonymous (w : World) : Prop where
  units : ∀ unit ∈ w.units, unit.referrer = .anonymous
  requests : ∀ request ∈ w.requests, request.referrer = .anonymous

theorem IsAnonymous.referrer (h : w.IsAnonymous) (unit : Nat) :
    (w.units[unit]?.map (·.referrer)).getD .anonymous = .anonymous := by
  cases found : w.units[unit]? with
  | none => rfl
  | some code => exact h.units code (Array.mem_of_getElem? found)

/-- If no code in a world is in a file, then none is later. -/
def StaysAnonymous (w w' : World) : Prop := w.IsAnonymous → w'.IsAnonymous

theorem isAnonymous_addUnit (h : w.IsAnonymous) {unit : CodeUnit} (own : unit.referrer = .anonymous) :
    ({ w with units := w.units.push unit } : World).IsAnonymous where
  units other member := by
    rcases Array.mem_push.mp member with old | rfl
    · exact h.units other old
    · exact own
  requests := h.requests

/-- Whatever code does, and whatever is done to evaluate it, adds no code that is in a file. -/
instance : IsEvaluationLaw StaysAnonymous where
  refl _ := id
  trans _ _ _ first later := later ∘ first
  objects _ _ _ h := ⟨h.units, h.requests⟩
  scopes _ _ h := ⟨h.units, h.requests⟩
  modules _ _ _ _ h := ⟨h.units, h.requests⟩
  place _ _ _ _ h := ⟨h.units, h.requests⟩
  jobs _ _ h := ⟨h.units, h.requests⟩
  request w unit specifier result h := by
    refine ⟨h.units, fun request member => ?_⟩
    rcases List.mem_append.mp member with old | new
    · exact h.requests request old
    · rw [List.mem_singleton.mp new]
      exact h.referrer unit
  record _ _ h := ⟨h.units, h.requests⟩
  compile w _ _ h := isAnonymous_addUnit h (h.referrer w.running)
  refuse _ _ _ h := ⟨h.units, h.requests⟩
  execute _ _ h := ⟨h.units, h.requests⟩

end Script.World

/-- A session is what another one was, but for refused imports among its failures. -/
def Session.OnlyRefuses (session next : Session Nat) : Prop :=
  ∃ failures, next = { session with failures } ∧
    ∀ e ∈ failures, e ∈ session.failures ∨ ∃ specifier, e = .importFromNonFile specifier

section Workers

variable {σ : Type}

def Load.specifier : Load → Text.Units
  | .request _ _ specifier => specifier
  | .dynamic asked => asked.specifier

/-- What becomes of what a load is for when its import fails: the graph is given up, or the promise that
the code waits for is rejected. -/
def Load.giveUp (load : Load) (reason : Value) : Hosted σ PUnit :=
  match load with
  | .request graph _ _ => Hosted.failGraph graph reason
  | .dynamic asked => Hosted.lift (settle asked.result (.error reason))

namespace Worker

/-- No code of a worker is in a file, and its session and its store are what they were, but for refused
imports among the failures. -/
structure IsSecluded (session : Session Nat) (store : σ) (worker : Worker σ) : Prop where
  world : worker.world.IsAnonymous
  /-- What imports at run time is in no file. -/
  asked : ∀ request, .dynamic request ∈ worker.queue ∨ some (.dynamic request) ∈ worker.slots →
    request.referrer = .anonymous
  session : ∃ next, worker.session = some next ∧ session.OnlyRefuses next
  store : worker.store = store

def StaysSecluded (session : Session Nat) (store : σ) (worker later : Worker σ) : Prop :=
  worker.IsSecluded session store → later.IsSecluded session store

instance {session : Session Nat} {store : σ} :
    IsPreorder (Worker σ) (StaysSecluded session store) where
  refl _ := id
  trans _ _ _ first later := later ∘ first

/-- A load fails at its import, whose failure is noted; the error that code sees says which specifier
was refused. -/
def Denies [Store.Source σ] (worker : Worker σ) (load : Load) : Prop :=
  ∃ session reason after, worker.session = some session ∧
    Hosted.importModule .anonymous load.specifier worker = .ok (.error reason) after ∧
    Hosted.runLoad load worker = load.giveUp reason after ∧
    after.session = some (session.fail (.importFromNonFile load.specifier.toString)) ∧
    after.store = worker.store ∧
    after.world.Says reason (Error.importFromNonFile load.specifier.toString).describe

variable {session : Session Nat} {store : σ} {worker : Worker σ}

/-- The loads of a secluded worker may change place, or go. -/
theorem IsSecluded.loads (h : worker.IsSecluded session store) {queue : List Load}
    {slots : List (Option Load)} (free : List Nat) (graphs : Array GraphLoad)
    (known : ∀ load, load ∈ queue ∨ some load ∈ slots →
      load ∈ worker.queue ∨ some load ∈ worker.slots) :
    ({ worker with queue, slots, free, graphs } : Worker σ).IsSecluded session store where
  world := h.world
  asked request waits := h.asked request (known _ waits)
  session := h.session
  store := h.store

end Worker

namespace Hosted

open Worker

variable {α : Type} {session : Session Nat} {store : σ} {worker : Worker σ}

/-- What code imports is queued, and is asked for by code that is in no file. -/
theorem secludes_lift {action : Action α} (stays : Obeys World.StaysAnonymous action) :
    Obeys (StaysSecluded session store) (lift action : Hosted σ α) := by
  intro worker h
  have world := stays worker.world h.world
  have settled (w : World) (anonymous : w.IsAnonymous) :
      ({ worker with
        world := { w with requests := [] }
        queue := worker.queue ++ w.requests.map .dynamic } : Worker σ).IsSecluded session store := by
    refine { h with world := ⟨anonymous.units, nofun⟩, asked := fun request waits => ?_ }
    rcases waits with queued | stands
    · rcases List.mem_append.mp queued with old | new
      · exact h.asked request (.inl old)
      · obtain ⟨_, member, same⟩ := List.mem_map.mp new
        exact Load.dynamic.inj same ▸ anonymous.requests _ member
    · exact h.asked request (.inr stands)
  unfold left at world ⊢
  unfold lift
  cases done : action worker.world with
  | ok value w => exact settled w (by simpa [done] using world)
  | error abrupt w => exact settled w (by simpa [done] using world)

theorem secludes_modifyGraph (id : Nat) (f : GraphLoad → GraphLoad) :
    Obeys (StaysSecluded session store) (modifyGraph id f : Hosted σ PUnit) :=
  fun worker h => h.loads worker.free _ fun _ known => known

theorem secludes_graph (id : Nat) :
    Obeys (StaysSecluded session store) (graph id : Hosted σ GraphLoad) :=
  .bind .get fun _ => .pure _

theorem secludes_settle (promise : ObjectId) (outcome : Except Value Value) :
    Obeys (StaysSecluded session store) (lift (settle promise outcome) : Hosted σ PUnit) :=
  secludes_lift (Script.obeys_settle _ _)

theorem secludes_failGraph (id : Nat) (reason : Value) :
    Obeys (StaysSecluded session store) (failGraph id reason : Hosted σ PUnit) := by
  refine .bind (secludes_graph id) fun graph => ?_
  split
  · exact .bind (secludes_modifyGraph id _) fun _ => secludes_settle _ _
  · exact .pure _

theorem secludes_giveUp (load : Load) (reason : Value) :
    Obeys (StaysSecluded session store) (load.giveUp reason : Hosted σ PUnit) := by
  cases load with
  | request graph module specifier => exact secludes_failGraph graph reason
  | dynamic request => exact secludes_settle _ _

theorem secludes_finishVisit (id : Nat) :
    Obeys (StaysSecluded session store) (finishVisit id : Hosted σ PUnit) := by
  refine .bind (secludes_modifyGraph id _) fun _ => .bind (secludes_graph id) fun graph => ?_
  split
  · exact .bind (secludes_modifyGraph id _) fun _ => secludes_settle _ _
  · exact .pure _

theorem secludes_enqueue (id module : Nat) (specifier : Text.Units) :
    Obeys (StaysSecluded session store)
      (enqueue (.request id module specifier) : Hosted σ PUnit) := by
  refine fun worker h => { h with asked := fun request waits => ?_ }
  rcases waits with queued | stands
  · rcases List.mem_append.mp queued with old | new
    · exact h.asked request (.inl old)
    · exact nomatch List.mem_singleton.mp new
  · exact h.asked request (.inr stands)

theorem secludes_visit (fuel id module : Nat) :
    Obeys (StaysSecluded session store) (visit fuel id module : Hosted σ PUnit) := by
  induction fuel generalizing module with
  | zero => exact .throw _
  | succ fuel ih =>
    rw [visit_succ]
    refine .bind .get fun worker => .bind (secludes_graph id) fun graph => ?_
    split
    · refine .bind (secludes_modifyGraph id _) fun _ => .bind (.forM _ fun specifier => ?_)
        fun _ => secludes_finishVisit id
      split
      · exact ih _
      · exact secludes_enqueue _ _ _
    · exact secludes_finishVisit id

theorem secludes_loadGraph (module : Nat) :
    Obeys (StaysSecluded session store) (loadGraph module : Hosted σ ObjectId) := by
  refine .bind (secludes_lift obeys_newPromise) fun promise => .get_bind fun worker => ?_
  refine fun h => Obeys.bind (secludes_visit _ _ module) (fun _ => .pure promise) _ ?_
  exact h.loads worker.free _ fun _ known => known

section Imports

variable [Store.Source σ]

/-- Code that is in no file imports nothing. -/
theorem importModule_of_anonymous {session : Session Nat} (here : worker.session = some session)
    (specifier : Text.Units) :
    importModule .anonymous specifier worker =
      answer (.error (.importFromNonFile specifier.toString)) worker := by
  have refused : resolve session .anonymous specifier worker =
      .ok (.error (.importFromNonFile specifier.toString)) { worker with session := some session } :=
    resolve_eq rfl
  have same : { worker with session := some session } = worker := by rw [← here]
  rw [importModule_eq here, bind_of_ok refused, same]

omit [Store.Source σ] in
theorem secludes_answer (specifier : String) :
    Obeys (StaysSecluded session store) (answer (.error (.importFromNonFile specifier)) :
      Hosted σ (Except Value Nat)) := by
  refine .bind (fun worker h => { h with session := ?_ }) fun _ =>
    .bind (secludes_lift (obeys_newError _ _)) fun _ => .pure _
  obtain ⟨_, here, failures, rfl, refused⟩ := h.session
  refine ⟨_, ?_, failures ++ [.importFromNonFile specifier], rfl, fun e member => ?_⟩
  · change worker.session.map (·.fail (.importFromNonFile specifier)) = _
    rw [here]
    rfl
  rcases List.mem_append.mp member with old | new
  · exact refused e old
  · exact .inr ⟨specifier, List.mem_singleton.mp new⟩

end Imports

end Hosted

namespace Worker

open Hosted

variable [Store.Source σ] {session : Session Nat} {store : σ} {worker : Worker σ}

/-- A load of a secluded worker comes to what becomes of a refused import. -/
theorem IsSecluded.runLoad_eq (h : worker.IsSecluded session store) {load : Load}
    (asked : load ∈ worker.queue ∨ some load ∈ worker.slots) :
    runLoad load worker = load.giveUp (.object worker.world.objects.size)
      (failed worker (.importFromNonFile load.specifier.toString)) := by
  obtain ⟨_, here, _⟩ := h.session
  have refused := importModule_of_anonymous here load.specifier
  rw [answer_run] at refused
  cases load with
  | request graph module specifier =>
    obtain ⟨referrer, found⟩ := referrerOf_run module worker
    have anonymous : referrer = .anonymous := by
      rw [referrerOf, bind_of_ok (get_run worker)] at found
      cases body : (worker.world.module module).body with
      | code unit =>
        rw [body] at found
        obtain ⟨rfl, -⟩ := EStateM.Result.ok.inj found
        exact h.world.referrer unit
      | _ =>
        rw [body] at found
        exact (EStateM.Result.ok.inj found).1.symm
    rw [anonymous] at found
    rw [runLoad, bind_of_ok found]
    exact bind_of_ok refused _
  | dynamic request =>
    rw [runLoad, h.asked request asked]
    exact bind_of_ok refused _

/-- Every load of a secluded worker is refused. -/
theorem IsSecluded.denies (h : worker.IsSecluded session store) {load : Load}
    (asked : load ∈ worker.queue ∨ some load ∈ worker.slots) : worker.Denies load := by
  obtain ⟨_, here, _⟩ := h.session
  have refused := importModule_of_anonymous here load.specifier
  have answered := answer_run worker (.importFromNonFile load.specifier.toString)
  obtain ⟨noted, told⟩ := says_of_answer here answered
  exact ⟨_, _, _, here, refused.trans answered, h.runLoad_eq asked, noted, rfl, told⟩

end Worker

namespace Hosted

open Worker

variable [Store.Source σ] {session : Session Nat} {store : σ} {worker : Worker σ}

/-- A load leaves a secluded worker so. -/
theorem secludes_runLoad {load : Load} (stands : some load ∈ worker.slots) :
    worker.StaysSecluded session store (left (runLoad load) worker) := by
  intro h
  have refused := secludes_answer load.specifier.toString worker h
  rw [left_of_ok (answer_run ..)] at refused
  rw [left, h.runLoad_eq (.inr stands)]
  exact secludes_giveUp load _ _ refused

omit [Store.Source σ] in
theorem secludes_takeSlots (worker : Worker σ) :
    worker.StaysSecluded session store (takeSlots worker) := by
  intro h
  obtain ⟨slots, free, taken, known⟩ := foldl_takeSlot_mem worker.queue { worker with queue := [] }
  rw [takeSlots, taken]
  refine h.loads free worker.graphs fun load waits => ?_
  rcases waits with queued | stands
  · contradiction
  · exact known load stands

omit [Store.Source σ] in
theorem secludes_runJobs : Obeys (StaysSecluded session store) (runJobs : Hosted σ Bool) := by
  have cleared (worker : Worker σ) : worker.StaysSecluded session store
      { worker with world := { worker.world with jobs := [] } } := fun h =>
    { h with world := ⟨h.world.units, h.world.requests⟩ }
  exact .bind .get fun worker => .bind cleared fun _ =>
    .bind (.forM _ fun job => secludes_lift (obeys_runJob job)) fun _ => .pure _

theorem secludes_round : Obeys (StaysSecluded session store) (round : Hosted σ Bool) := by
  rw [round_eq]
  refine .bind secludes_takeSlots fun _ => .get_bind fun worker => ?_
  split
  · exact Std.Refl.refl worker
  · split
    next slot load lowest =>
      refine Obeys.bind_at (secludes_runLoad (mem_of_lowestLoad? lowest)) fun _ =>
        .bind (fun worker h => ?_) fun _ => secludes_runJobs
      refine h.loads _ worker.graphs fun load waits => waits.imp_right fun stands => ?_
      exact (List.mem_or_eq_of_mem_set stands).resolve_right nofun
    next => exact secludes_runJobs worker

/-- The worker after some rounds, if no end comes before. -/
def afterRounds : Nat → Worker σ → Worker σ
  | 0, worker => worker
  | n + 1, worker => afterRounds n (round.final worker)

theorem secludes_afterRounds (n : Nat) :
    worker.StaysSecluded session store (afterRounds n worker) := by
  induction n generalizing worker with
  | zero => exact Std.Refl.refl worker
  | succ n ih =>
    intro h
    rw [afterRounds, ← left_eq_final]
    exact ih (secludes_round worker h)

/-- Doing rounds until nothing is left is doing some number of them. -/
theorem exists_afterRounds (fuel : Nat) (worker : Worker σ) :
    ∃ n, left (rounds fuel) worker = afterRounds n worker := by
  induction fuel generalizing worker with
  | zero => exact ⟨0, rfl⟩
  | succ fuel ih =>
    cases done : round worker with
    | error abrupt after =>
      refine ⟨1, ?_⟩
      rw [rounds, left_bind_of_error done, afterRounds, final_of_error done]
      rfl
    | ok more after =>
      rw [rounds, left_bind_of_ok done]
      cases more with
      | false =>
        refine ⟨1, ?_⟩
        rw [afterRounds, final_of_ok done]
        rfl
      | true =>
        obtain ⟨n, same⟩ := ih after
        refine ⟨n + 1, ?_⟩
        rw [afterRounds, final_of_ok done]
        exact same

theorem secludes_rounds (fuel : Nat) :
    Obeys (StaysSecluded session store) (rounds fuel : Hosted σ PUnit) := by
  intro worker
  obtain ⟨n, same⟩ := exists_afterRounds fuel worker
  rw [same]
  exact secludes_afterRounds n

omit [Store.Source σ] in
theorem secludes_clear (worker : Worker σ) :
    worker.StaysSecluded session store (clear worker) := fun h =>
  { h with
    world := ⟨h.world.units, nofun⟩, asked := fun _ waits => waits.elim nofun nofun }

/-- All that a worker does until a promise is settled leaves it secluded. -/
theorem secludes_settled (promise : ObjectId) :
    Obeys (StaysSecluded session store) (settled promise : Hosted σ PUnit) := by
  have drained : Obeys (StaysSecluded session store) (drain : Hosted σ PUnit) :=
    obeys_drain_of (secludes_rounds _) secludes_clear
  refine .bind drained fun _ => .bind .get fun worker => ?_
  split
  · exact .pure _
  · exact .throw _
  · exact .bind (secludes_lift (obeys_newFailure _ _)) fun error => .throw _

end Hosted

namespace Worker

open Hosted

variable [Store.Source σ] {session : Session Nat} {store : σ} {worker : Worker σ}

/-- In every round that a worker does, from here on, it is secluded, and the load that it does is
refused. -/
def DeniesAll (session : Session Nat) (store : σ) (worker : Worker σ) : Prop :=
  ∀ n, (afterRounds n worker).IsSecluded session store ∧
    ∀ slot load, lowestLoad? (takeSlots (afterRounds n worker)).slots = some (slot, load) →
      (takeSlots (afterRounds n worker)).Denies load

theorem IsSecluded.deniesAll (h : worker.IsSecluded session store) :
    worker.DeniesAll session store := by
  intro n
  have still := secludes_afterRounds n h
  refine ⟨still, fun slot load lowest => ?_⟩
  exact (secludes_takeSlots _ still).denies (.inr (mem_of_lowestLoad? lowest))

end Worker
end Workers
end Isolate
