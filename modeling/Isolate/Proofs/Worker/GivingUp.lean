import Isolate.Proofs.Blueprint.Delivery
import Isolate.Proofs.Worker.Seclusion

/-!
# The failure that a graph is given up for

When the requests of a root are all refused, the graph is given up for the first of them. The loads that
are left are still done, and their failures are noted behind the first one, so that it is the first one
that a build reports.
-/

namespace Isolate

open Script Hosted

namespace Script.World

variable {w w' : World} {value : Value} {text : String}

/-- An error says what it says when there is one more object. -/
theorem Says.push (h : w.Says value text) {object : Object}
    (same : w'.objects = w.objects.push object) : w'.Says value text := by
  obtain ⟨id, kind, site, property, rfl, nature, own, message⟩ := h
  have old : id < w.objects.size := by
    by_contra far
    rw [World.object, Array.getD_eq_getD_getElem?, Array.getElem?_eq_none (Nat.le_of_not_lt far)] at nature
    contradiction
  have kept : w'.object id = w.object id := by
    rw [World.object, World.object, same, Array.getD_eq_getD_getElem?, Array.getD_eq_getD_getElem?,
      Array.getElem?_push_lt old, Array.getElem?_eq_getElem old]
  exact ⟨id, kind, site, property, rfl, by rw [kept, nature], by rw [kept, own], message⟩

/-- An error says what it says when a promise is settled. -/
theorem Says.settles (h : w.Says value text) {id : ObjectId} {state state' : PromiseState}
    (settles : w.Settles w' id state) (waits : w.promiseState? id = some state') :
    w'.Says value text := by
  obtain ⟨other, kind, site, property, rfl, nature, own, message⟩ := h
  have apart : other ≠ id := by
    rintro rfl
    rw [promiseState?, nature] at waits
    contradiction
  have kept := settles.others other apart
  exact ⟨other, kind, site, property, rfl, by rw [kept, nature], by rw [kept, own], message⟩

end Script.World

variable {σ : Type} [Store.Source σ]

namespace Worker

variable {worker : Worker σ} {session : Session Nat} {store : σ} {promise : ObjectId} {failure : Error}
  {g : GraphLoad}

omit [Store.Source σ] in
/-- Where nothing waits for an import, an import that fails leaves all as it is but for its failure. -/
theorem keeps_failed (idle : worker.world.requests = []) (here : worker.session = some session)
    (error : Error) : worker.Keeps (Hosted.failed worker error) [] := by
  obtain ⟨reason, after, answered, keeps, _⟩ := answer_outcome here idle error
  rw [answer_run] at answered
  obtain ⟨-, rfl⟩ := EStateM.Result.ok.inj answered
  exact keeps

/-- A round that finds a load does it, and what else is left to do if anything is. -/
theorem round_of_lowest {begun after : Worker σ} {slot : Nat} {load : Load}
    (taken : takeSlots worker = begun) (lowest : lowestLoad? begun.slots = some (slot, load))
    (ran : runLoad load begun = .ok ⟨⟩ after) (idle : after.world.jobs = []) :
    round worker =
      .ok true { after with slots := after.slots.set slot none, free := slot :: after.free } := by
  have filled : (modify takeSlots : Hosted σ PUnit) worker = .ok ⟨⟩ begun :=
    congrArg (EStateM.Result.ok _) taken
  rw [Hosted.round_eq, bind_of_ok filled, bind_of_ok (get_run begun), lowest]
  dsimp only
  rw [bind_of_ok ran]
  exact runJobs_of_idle idle

/-- A round that finds no load and no job does nothing. -/
theorem round_of_none {begun : Worker σ} (taken : takeSlots worker = begun)
    (lowest : lowestLoad? begun.slots = none) (idle : begun.world.jobs = []) :
    round worker = .ok false begun := by
  have filled : (modify takeSlots : Hosted σ PUnit) worker = .ok ⟨⟩ begun :=
    congrArg (EStateM.Result.ok _) taken
  rw [Hosted.round_eq, bind_of_ok filled, bind_of_ok (get_run begun), lowest, idle]
  rfl

/-- The one graph of a worker is given up for the failure that was noted first; nothing is left to do
but loads that modules request. -/
structure HasGivenUp (promise : ObjectId) (failure : Error) (worker : Worker σ) : Prop where
  graph : ∃ g, worker.LoadsOnly g ∧ g.promise = promise ∧ g.isLoading = false
  asked : ∀ load, load ∈ worker.queue ∨ some load ∈ worker.slots → ∃ m s, load = .request 0 m s
  noted : ∃ session rest, worker.session = some session ∧ session.failures = failure :: rest
  told : ∃ reason, worker.world.promiseState? promise = some (.rejected reason) ∧
    worker.world.Says reason failure.describe

namespace HasGivenUp

omit [Store.Source σ] in
/-- The loads may change place, or go. -/
theorem loads (h : worker.HasGivenUp promise failure) {queue : List Load}
    {slots : List (Option Load)} (free : List Nat)
    (known : ∀ load, load ∈ queue ∨ some load ∈ slots →
      load ∈ worker.queue ∨ some load ∈ worker.slots) :
    ({ worker with queue, slots, free } : Worker σ).HasGivenUp promise failure where
  graph := by
    obtain ⟨g, only, own, ended⟩ := h.graph
    exact ⟨g, only.of_eq rfl rfl, own, ended⟩
  asked load waits := h.asked load (known load waits)
  noted := h.noted
  told := h.told

omit [Store.Source σ] in
/-- Another import fails. -/
theorem failed (h : worker.HasGivenUp promise failure) (error : Error) :
    (Hosted.failed worker error).HasGivenUp promise failure := by
  obtain ⟨g, only, rfl, ended⟩ := h.graph
  obtain ⟨session, rest, here, noted⟩ := h.noted
  obtain ⟨reason, rejected, told⟩ := h.told
  have keeps := keeps_failed only.requests here error
  refine ⟨⟨g, only.keeps keeps, rfl, ended⟩, fun load waits => ?_,
    ⟨session.fail error, rest ++ [error], ?_, ?_⟩, reason, ?_, told.push rfl⟩
  · rw [keeps.queue, keeps.slots] at waits
    exact h.asked load waits
  · rw [Hosted.failed, here]
    rfl
  · rw [Session.fail, noted]
    rfl
  · exact (keeps.world.promises g.promise only.promise).trans rejected

/-- A round does one of the loads that are left, or finds that none is left. -/
theorem round (h : worker.HasGivenUp promise failure) (secluded : worker.IsSecluded session store) :
    ∃ more after, Hosted.round worker = .ok more after ∧ after.HasGivenUp promise failure := by
  obtain ⟨slots, free, taken, known⟩ := foldl_takeSlot_mem worker.queue { worker with queue := [] }
  let begun : Worker σ := { worker with queue := [], slots, free }
  have taken : takeSlots worker = begun := taken
  have secluded' : begun.IsSecluded session store := taken ▸ secludes_takeSlots worker secluded
  have given : begun.HasGivenUp promise failure := h.loads free fun load waits => by
    rcases waits with queued | stands
    · contradiction
    · exact known load stands
  obtain ⟨g, only, _, ended⟩ := given.graph
  cases lowest : lowestLoad? begun.slots with
  | none => exact ⟨false, begun, round_of_none taken lowest only.jobs, given⟩
  | some entry =>
    obtain ⟨slot, load⟩ := entry
    have stands := mem_of_lowestLoad? lowest
    obtain ⟨m, s, rfl⟩ := given.asked load (.inr stands)
    let refused := Hosted.failed begun (.importFromNonFile s.toString)
    have given' : refused.HasGivenUp promise failure := given.failed _
    obtain ⟨g', only', _, ended'⟩ := given'.graph
    have ran : runLoad (.request 0 m s) begun = .ok ⟨⟩ refused :=
      (secluded'.runLoad_eq (.inr stands)).trans (failGraph_of_ended only'.graphs ended' _)
    refine ⟨true, _, round_of_lowest taken lowest ran only'.jobs,
      given'.loads _ fun load waits => waits.imp_right fun stands => ?_⟩
    exact (List.mem_or_eq_of_mem_set stands).resolve_right (Option.some_ne_none load)

/-- The rounds that are left end, or there are too few of them. -/
theorem rounds (h : worker.HasGivenUp promise failure) (secluded : worker.IsSecluded session store)
    (fuel : Nat) :
    ∃ after, (Hosted.rounds fuel worker = .ok ⟨⟩ after ∨
        Hosted.rounds fuel worker = .error .exhausted after) ∧
      after.HasGivenUp promise failure ∧ after.IsSecluded session store := by
  induction fuel generalizing worker with
  | zero => exact ⟨worker, .inr rfl, h, secluded⟩
  | succ fuel ih =>
    obtain ⟨more, after, done, given⟩ := h.round secluded
    have still : after.IsSecluded session store := by
      have kept := secludes_round worker secluded
      rwa [left_of_ok done] at kept
    cases more with
    | false => exact ⟨after, .inl (rounds_of_none done), given, still⟩
    | true =>
      rw [rounds_of_more done]
      exact ih given still

end HasGivenUp

omit [Store.Source σ] in
/-- A graph whose root makes requests is loading, and the requests are queued. -/
theorem loadGraph_of_requests (idle : worker.world.requests = []) (calm : worker.world.jobs = [])
    (graphs : worker.graphs = #[]) {root : Nat} {module : Module}
    (known : root < worker.world.modules.size) (here : worker.world.module root = module)
    (some : module.requests ≠ []) (unlinked : module.status = .unlinked)
    (unloaded : module.loaded = []) :
    ∃ w' g, loadGraph root worker = .ok g.promise { worker with
        world := w', queue := worker.queue ++ module.requests.map (.request 0 root), graphs := #[g] } ∧
      g.isLoading ∧ ({ worker with
        world := w', queue := worker.queue ++ module.requests.map (.request 0 root), graphs := #[g] } :
          Worker σ).LoadsOnly g := by
  obtain ⟨w', promised, grown, new, pending, _⟩ := lift_newPromise idle
  let promise := worker.world.objects.size
  let begun : Worker σ := { worker with world := w', graphs := #[{ promise }] }
  let met : GraphLoad := { promise, visited := [root], pending := 1 + module.requests.length }
  let g : GraphLoad := { met with pending := met.pending - 1 }
  have only : begun.LoadsOnly { promise } :=
    ⟨rfl, grown.jobs.trans calm, grown.requests.trans idle, new, fun _ => pending⟩
  have counted : 1 < met.pending := by
    have made := List.length_pos_iff.mpr some
    change 1 < 1 + module.requests.length
    omega
  have visited : visit (w'.modules.size + 1) 0 root begun = .ok ⟨⟩ { worker with
      world := w', queue := worker.queue ++ module.requests.map (.request 0 root), graphs := #[g] } := by
    have begins := visit_of_new only.graphs ((grown.module_eq known).trans here) some unlinked
      List.not_mem_nil unloaded w'.modules.size
    rw [begins]
    exact finishVisit_of_more (g := met) rfl counted
  refine ⟨w', g, ?_, rfl, only.count rfl rfl rfl rfl⟩
  rw [loadGraph, bind_of_ok promised, bind_of_ok (get_run _)]
  change (visit (w'.modules.size + 1) worker.graphs.size root >>= fun _ => pure promise)
    { worker with world := w', graphs := worker.graphs.push { promise } } = _
  rw [graphs]
  exact bind_of_ok visited _

omit [Store.Source σ] in
/-- While no slot is free, queued loads get new slots in their order. -/
theorem takeSlots_of_new (free : worker.free = []) :
    takeSlots worker =
      { worker with queue := [], slots := worker.slots ++ worker.queue.map some } := by
  have taken (queue : List Load) (worker : Worker σ) (free : worker.free = []) :
      queue.foldl takeSlot worker = { worker with slots := worker.slots ++ queue.map some } := by
    induction queue generalizing worker with
    | nil => rw [List.foldl_nil, List.map_nil, List.append_nil]
    | cons load queue ih =>
      have slot : takeSlot worker load = { worker with slots := worker.slots ++ [some load] } := by
        rw [takeSlot, free]
      rw [List.foldl_cons, slot]
      refine (ih { worker with slots := worker.slots ++ [some load] } free).trans ?_
      rw [List.append_assoc, List.singleton_append, List.map_cons]
  exact taken worker.queue { worker with queue := [] } free

/-- The first of the requests that a secluded worker has queued is the one that its graph is given up
for. -/
theorem hasGivenUp_of_request (only : worker.LoadsOnly g) (loading : g.isLoading)
    (secluded : worker.IsSecluded session store) (here : worker.session = some session)
    (fresh : session.failures = []) {m : Nat} {s : Text.Units} {specifiers : List Text.Units}
    (queue : worker.queue = (s :: specifiers).map (.request 0 m)) (slots : worker.slots = [])
    (free : worker.free = []) :
    ∃ after, round worker = .ok true after ∧
      after.HasGivenUp g.promise (.importFromNonFile s.toString) := by
  have taken := takeSlots_of_new free
  generalize filled : ({ worker with queue := [], slots := worker.slots ++ worker.queue.map some } :
    Worker σ) = begun at taken
  have stand : begun.slots = (s :: specifiers).map fun s => some (.request 0 m s) := by
    rw [← filled]
    dsimp only
    rw [slots, queue, List.nil_append, List.map_map]
    rfl
  have empty : begun.queue = [] := by rw [← filled]
  have here' : begun.session = some session := by rw [← filled, ← here]
  have only' : begun.LoadsOnly g := by
    rw [← filled]
    exact only.of_eq rfl rfl
  have secluded' : begun.IsSecluded session store := taken ▸ secludes_takeSlots worker secluded
  have lowest : lowestLoad? begun.slots = some (0, .request 0 m s) := by
    rw [stand]
    rfl
  have stands := mem_of_lowestLoad? lowest
  let error : Error := .importFromNonFile s.toString
  have keeps := keeps_failed only'.requests here' error
  obtain ⟨noted, told⟩ := says_of_answer here' (answer_run begun error)
  obtain ⟨w', failed, settles⟩ := failGraph_of_loading (only'.keeps keeps) loading
    (.object begun.world.objects.size)
  have ran := (secluded'.runLoad_eq (.inr stands)).trans failed
  have given : (⟨w', (Hosted.failed begun error).session, begun.store,
      (Hosted.failed begun error).queue, begun.slots, begun.free,
      #[{ g with isLoading := false }]⟩ : Worker σ).HasGivenUp g.promise error := by
    have waits := (only'.keeps keeps).waits loading
    refine ⟨⟨_, (only'.keeps keeps).settle settles rfl rfl rfl, rfl, rfl⟩, fun load waits => ?_,
      ⟨_, [], noted, ?_⟩, ⟨_, settles.promise, told.settles settles waits⟩⟩
    · rw [keeps.queue, empty, stand] at waits
      obtain ⟨s, _, same⟩ := List.mem_map.mp (waits.resolve_left List.not_mem_nil)
      exact ⟨m, s, (Option.some.inj same).symm⟩
    · rw [Session.fail, fresh]
      rfl
  refine ⟨_, round_of_lowest taken lowest ran (settles.jobs.trans (only'.keeps keeps).jobs),
    given.loads _ fun load waits => waits.imp_right fun stands => ?_⟩
  exact (List.mem_or_eq_of_mem_set stands).resolve_right (Option.some_ne_none load)

/-- A secluded worker that has queued requests ends with the failure of a graph that is given up. The
first failure that was noted is that of the first request, and it is the one that is told of, unless
there are too many rounds to do. -/
theorem settled_of_request (only : worker.LoadsOnly g) (loading : g.isLoading)
    (secluded : worker.IsSecluded session store) (here : worker.session = some session)
    (fresh : session.failures = []) {m : Nat} {s : Text.Units} {specifiers : List Text.Units}
    (queue : worker.queue = (s :: specifiers).map (.request 0 m)) (slots : worker.slots = [])
    (free : worker.free = []) :
    ∃ abrupt after, settled g.promise worker = .error abrupt after ∧
      after.IsSecluded session store ∧
      (∃ next rest, after.session = some next ∧
        next.failures = .importFromNonFile s.toString :: rest) ∧
      (abrupt = .exhausted ∨ Text.contains (after.world.diagnostic abrupt).toList
        (Error.importFromNonFile s.toString).describe.toList) := by
  obtain ⟨begun, first, given⟩ :=
    hasGivenUp_of_request only loading secluded here fresh queue slots free
  have secluded' : begun.IsSecluded session store := by
    have still := secludes_round worker secluded
    rwa [left_of_ok first] at still
  obtain ⟨fuel, limit⟩ : ∃ fuel, stepLimit = fuel + 1 :=
    Nat.exists_eq_add_one.mpr (by decide)
  obtain ⟨ended, done, given', still⟩ := given.rounds secluded' fuel
  rw [← rounds_of_more first, ← limit] at done
  obtain ⟨reason, rejected, told⟩ := given'.told
  rcases done with ran | stopped
  · exact ⟨_, ended, settled_of_rejected ran rejected, still, given'.noted,
      .inr (told.contains_diagnostic none)⟩
  · have drained : drain worker = .error .exhausted (clear ended) := by rw [drain, stopped]
    exact ⟨.exhausted, clear ended, by rw [settled, bind_of_error drained],
      secludes_clear ended still, given'.noted, .inl rfl⟩

end Worker
end Isolate
