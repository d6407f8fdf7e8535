import Isolate.Proofs.Worker.Evolution
import Mathlib.Data.List.Perm.Basic

/-!
# The loads that are left to do

Loads wait in a queue and then stand in slots. A slot that is listed as free is empty, so that giving
slots to the queued loads loses none of them. A round does one of the loads, or finds that none is left.
-/

namespace Isolate

namespace Hosted

variable {slots : List (Option Load)} {free : List Nat} {load : Load} {i : Nat}

/-- The slots that are listed as free are empty, and each is listed once. -/
structure IsFree (slots : List (Option Load)) (free : List Nat) : Prop where
  nodup : free.Nodup
  empty : ∀ i ∈ free, slots[i]? = some none

def loadsIn (slots : List (Option Load)) : List Load := slots.filterMap id

/-- Putting a load into an empty slot adds it to those that stand in slots. -/
theorem loadsIn_set (empty : slots[i]? = some none) :
    (loadsIn (slots.set i (some load))).Perm (load :: loadsIn slots) := by
  induction slots generalizing i with
  | nil => contradiction
  | cons slot slots ih =>
    cases i with
    | zero =>
      obtain rfl : slot = none := Option.some.inj empty
      exact .refl _
    | succ i =>
      have rest := ih (i := i) empty
      cases slot with
      | none => exact rest
      | some other => exact (rest.cons other).trans (.swap load other _)

/-- Emptying a slot takes its load away. -/
theorem perm_loadsIn_set_none (here : slots[i]? = some (some load)) :
    (loadsIn slots).Perm (load :: loadsIn (slots.set i none)) := by
  induction slots generalizing i with
  | nil => contradiction
  | cons slot slots ih =>
    cases i with
    | zero =>
      obtain rfl : slot = some load := Option.some.inj here
      exact .refl _
    | succ i =>
      have rest := ih (i := i) here
      cases slot with
      | none => exact rest
      | some other => exact (rest.cons other).trans (.swap load other _)

theorem lowestLoad?_eq_none (h : loadsIn slots = []) : lowestLoad? slots = none := by
  rw [lowestLoad?, List.findSome?_eq_none_iff]
  rintro ⟨slot, i⟩ member
  have empty := List.filterMap_eq_nil_iff.mp h slot (List.fst_mem_of_mem_zipIdx member)
  simpa using empty

/-- The load in the lowest slot that holds one stands in that slot. -/
theorem exists_lowestLoad? (h : loadsIn slots ≠ []) :
    ∃ i load, lowestLoad? slots = some (i, load) ∧ slots[i]? = some (some load) := by
  cases found : lowestLoad? slots with
  | none =>
    refine absurd (List.filterMap_eq_nil_iff.mpr fun slot member => ?_) h
    obtain ⟨i, inside, here⟩ := List.getElem_of_mem member
    have none := List.findSome?_eq_none_iff.mp found (slot, i)
      (List.mem_zipIdx_iff_getElem?.mpr (by rw [← here]; exact List.getElem?_eq_getElem inside))
    simpa using none
  | some entry =>
    obtain ⟨⟨slot, i⟩, member, here⟩ := List.exists_of_findSome?_eq_some found
    obtain ⟨load, rfl, same⟩ := Option.map_eq_some_iff.mp here
    exact ⟨i, load, by rw [← same], List.mem_zipIdx_iff_getElem?.mp member⟩

end Hosted

namespace Worker

open Hosted

variable {σ : Type} {worker : Worker σ}

def outstanding (worker : Worker σ) : List Load := loadsIn worker.slots ++ worker.queue

theorem takeSlot_spec (valid : IsFree worker.slots worker.free) (load : Load) :
    ∃ slots free, takeSlot worker load = { worker with slots, free } ∧ IsFree slots free ∧
      (loadsIn slots).Perm (load :: loadsIn worker.slots) := by
  rw [takeSlot]
  split
  next slot rest listed =>
    have once := valid.nodup
    rw [listed, List.nodup_cons] at once
    refine ⟨_, _, rfl, ⟨once.2, fun i member => ?_⟩, loadsIn_set (valid.empty slot ?_)⟩
    · have apart : slot ≠ i := fun same => once.1 (same ▸ member)
      rw [List.getElem?_set_ne apart]
      exact valid.empty i (listed ▸ List.mem_cons_of_mem _ member)
    · rw [listed]
      exact List.mem_cons_self
  next listed =>
    refine ⟨_, worker.free, rfl, ⟨valid.nodup, fun i member => by simp [listed] at member⟩, ?_⟩
    rw [loadsIn, List.filterMap_append]
    exact List.perm_append_singleton load _

theorem foldl_takeSlot_spec (queue : List Load) (valid : IsFree worker.slots worker.free) :
    ∃ slots free, queue.foldl takeSlot worker = { worker with slots, free } ∧ IsFree slots free ∧
      (loadsIn slots).Perm (loadsIn worker.slots ++ queue) := by
  induction queue generalizing worker with
  | nil => exact ⟨worker.slots, worker.free, rfl, valid, by rw [List.append_nil]⟩
  | cons load queue ih =>
    obtain ⟨slots, free, taken, valid, perm⟩ := takeSlot_spec valid load
    have valid' : IsFree ({ worker with slots, free } : Worker σ).slots
        ({ worker with slots, free } : Worker σ).free := valid
    obtain ⟨slots', free', rest, valid, perm'⟩ := ih valid'
    rw [List.foldl_cons, taken, rest]
    refine ⟨slots', free', rfl, valid, perm'.trans ?_⟩
    exact (perm.append_right queue).trans List.perm_middle.symm

/-- Giving slots to queued loads changes nothing else, and loses no load. -/
theorem takeSlots_spec (valid : IsFree worker.slots worker.free) :
    ∃ slots free, takeSlots worker = { worker with queue := [], slots, free } ∧
      IsFree slots free ∧ (loadsIn slots).Perm worker.outstanding := by
  have valid' : IsFree ({ worker with queue := [] } : Worker σ).slots
      ({ worker with queue := [] } : Worker σ).free := valid
  exact foldl_takeSlot_spec worker.queue valid'

variable [Store.Source σ]

omit [Store.Source σ] in
theorem runJobs_of_idle (idle : worker.world.jobs = []) : runJobs worker = .ok true worker := by
  change (worker.world.jobs.forM (fun job => lift (Script.runJob job)) >>= fun _ => Pure.pure true :
    Hosted σ Bool) { worker with world := { worker.world with jobs := [] } } = _
  have same : { worker with world := { worker.world with jobs := [] } } = worker := by rw [← idle]
  rw [same, idle]
  rfl

/-- A round that finds nothing left to do. -/
theorem round_of_idle (valid : IsFree worker.slots worker.free) (idle : worker.world.jobs = [])
    (done : worker.outstanding = []) :
    ∃ slots free, round worker = .ok false { worker with queue := [], slots, free } ∧
      loadsIn slots = [] := by
  obtain ⟨slots, free, taken, _, perm⟩ := takeSlots_spec valid
  have nothing : loadsIn slots = [] := by rw [done] at perm; exact perm.eq_nil
  refine ⟨slots, free, ?_, nothing⟩
  have filled : (modify takeSlots : Hosted σ PUnit) worker =
      .ok ⟨⟩ { worker with queue := [], slots, free } := by rw [← taken]; rfl
  rw [Hosted.round_eq, bind_of_ok filled, bind_of_ok (get_run _), lowestLoad?_eq_none nothing, idle]
  rfl

/-- A round does one of the loads that are left to do. What it leaves is what was left to do besides,
and what the load has queued. -/
theorem round_of_load (valid : IsFree worker.slots worker.free) (waits : worker.outstanding ≠ []) :
    ∃ (load : Load) (rest : List Load) (slots : List (Option Load)) (free : List Nat),
      worker.outstanding.Perm (load :: rest) ∧
      (∀ (S : Worker σ → Worker σ → Prop) [Worker.IsLaw S],
        S (Script.left (runLoad load) { worker with queue := [], slots, free })
          (Script.left round worker)) ∧
      ∀ after, runLoad load { worker with queue := [], slots, free } = .ok ⟨⟩ after →
        after.slots = slots → after.free = free → after.world.jobs = [] →
          ∃ slots' free', round worker = .ok true { after with slots := slots', free := free' } ∧
            IsFree slots' free' ∧ (loadsIn slots').Perm rest := by
  obtain ⟨slots, free, taken, valid', perm⟩ := takeSlots_spec valid
  have left : loadsIn slots ≠ [] := fun nothing =>
    waits (by rw [nothing] at perm; exact perm.nil_eq.symm)
  obtain ⟨i, load, lowest, here⟩ := exists_lowestLoad? left
  let goOn : Hosted σ Bool := modify (fun worker : Worker σ =>
    { worker with slots := worker.slots.set i none, free := i :: worker.free }) >>= fun _ => runJobs
  have begun : round worker =
      (runLoad load >>= fun _ => goOn) { worker with queue := [], slots, free } := by
    have filled : (modify takeSlots : Hosted σ PUnit) worker =
        .ok ⟨⟩ { worker with queue := [], slots, free } := by rw [← taken]; rfl
    rw [Hosted.round_eq, bind_of_ok filled, bind_of_ok (get_run _), lowest]
  refine ⟨load, loadsIn (slots.set i none), slots, free,
    perm.symm.trans (perm_loadsIn_set_none here), fun S law => ?_,
    fun after ran slots' free' idle => ?_⟩
  · have same : Script.left round worker =
        Script.left (runLoad load >>= fun _ => goOn) { worker with queue := [], slots, free } := by
      rw [Script.left, begun]
      rfl
    rw [same]
    exact Script.Obeys.left_bind _ fun _ => .bind
      (fun worker => law.tasks worker worker.queue _ _ worker.graphs) fun _ => obeys_runJobs
  have apart : i ∉ free := fun member => by
    rw [valid'.empty i member] at here
    cases Option.some.inj here
  refine ⟨slots.set i none, i :: free, ?_, ⟨List.nodup_cons.mpr ⟨apart, valid'.nodup⟩,
    fun j member => ?_⟩, .refl _⟩
  · rw [begun, bind_of_ok ran, ← slots', ← free']
    exact runJobs_of_idle idle
  · rcases List.mem_cons.mp member with rfl | member
    · exact List.getElem?_set_self (List.getElem?_eq_some_iff.mp here).1
    · have distinct : i ≠ j := fun same => apart (same ▸ member)
      rw [List.getElem?_set_ne distinct]
      exact valid'.empty j member

end Worker
end Isolate
