import Isolate.Proofs.Worker.Law
import Isolate.Proofs.Worker.Sequences

/-!
# What running code does to a session

All that a worker does on its own, loading graphs and running jobs, is a sequence of deeds: imports,
failures that are noted or forgotten, and changes that touch neither the session nor the files.
-/

namespace Isolate

variable {σ : Type} [Store.Source σ]

/-- A sequence of deeds leads from one worker to another. -/
def Worker.Evolves (worker later : Worker (Store.Watched σ)) : Prop :=
  ∃ deeds, worker.after deeds = later

namespace Worker.Evolves

variable {first second third : Worker (Store.Watched σ)}

theorem refl (worker : Worker (Store.Watched σ)) : worker.Evolves worker := ⟨[], rfl⟩

theorem trans (earlier : first.Evolves second) (later : second.Evolves third) :
    first.Evolves third := by
  obtain ⟨deeds, rfl⟩ := earlier
  obtain ⟨deeds', rfl⟩ := later
  exact ⟨deeds ++ deeds', List.foldl_append⟩

theorem of_deed (worker : Worker (Store.Watched σ)) (deed : Deed σ) :
    worker.Evolves (worker.act deed) := ⟨[deed], rfl⟩

/-- A change outside the session and the files is a deed. -/
theorem of_eq (session : second.session = first.session) (store : second.store = first.store) :
    first.Evolves second := by
  refine ⟨[.change fun _ => second], ?_⟩
  change { second with
    session := first.session, store := { second.store with reads := first.store.reads } } = second
  rw [← session, ← store]

theorem keeps_record {path : Path} {record : Nat} (h : first.Evolves second)
    (known : first.record? path = some record) :
    second.record? path = some record ∧ first.store.Spares second.store path := by
  obtain ⟨deeds, rfl⟩ := h
  have kept : (first.state deeds deeds.length).record? path = some record ∧
      first.store.Spares (first.state deeds deeds.length).store path :=
    keeps_record_later (Nat.zero_le deeds.length) known
  rwa [state, List.take_length] at kept

theorem keeps_bound {session : Session Nat} (h : first.Evolves second)
    (here : first.session = some session) (bound : session.isBound) :
    ∃ next, second.session = some next ∧ next.isBound := by
  obtain ⟨deeds, rfl⟩ := h
  induction deeds generalizing first session with
  | nil => exact ⟨session, here, bound⟩
  | cons deed deeds ih =>
    obtain ⟨next, left, bound⟩ := Worker.keeps_bound here bound deed
    exact ih left bound

/-- What a worker reads on its own comes after what it has read. -/
theorem reads (h : first.Evolves second) : first.store.reads <+: second.store.reads := by
  obtain ⟨deeds, rfl⟩ := h
  induction deeds generalizing first with
  | nil => exact List.prefix_refl _
  | cons deed deeds ih =>
    refine List.IsPrefix.trans ?_ ih
    cases deed with
    | resolve referrer specifier =>
      rw [act]
      cases here : first.session with
      | none => exact (Hosted.importModule_of_none here).2.1 ▸ List.prefix_refl _
      | some session =>
        obtain ⟨read, _, _, _, _, reads, _⟩ := Hosted.importModule_resolves here referrer specifier
        exact ⟨read.toList, reads.symm⟩
    | bind | clearFailures | takeFailure | change => exact List.prefix_refl _

end Worker.Evolves

namespace Hosted

variable {α : Type}

omit [Store.Source σ] in
theorem left_eq_final (action : Hosted σ α) (worker : Worker σ) :
    Script.left action worker = action.final worker := by
  unfold Script.left final
  cases action worker <;> rfl

instance : Worker.IsLaw (Worker.Evolves (σ := σ)) where
  refl := Worker.Evolves.refl
  trans _ _ _ := Worker.Evolves.trans
  lift {α action} _ worker := by
    rw [left_eq_final]
    exact .of_eq (session_final_lift action worker) (store_final_lift action worker)
  importModule referrer specifier worker := by
    rw [left_eq_final]
    exact .of_deed worker (.resolve referrer specifier)
  clearFailures worker := .of_deed worker .clearFailures
  tasks _ _ _ _ _ := .of_eq rfl rfl
  forget _ _ _ := .of_eq rfl rfl

/-- What the import of a requested specifier reads is read by the whole load. -/
theorem reads_runLoad {id module : Nat} {specifier : Text.Units} {referrer : Origin}
    {worker : Worker (Store.Watched σ)} (found : referrerOf module worker = .ok referrer worker) :
    ((importModule referrer specifier).final worker).store.reads <+:
      (Script.left (runLoad (.request id module specifier)) worker).store.reads := by
  have evolves : (Script.left (importModule referrer specifier) worker).Evolves
      (Script.left (importModule referrer specifier >>= goOn id module specifier) worker) :=
    Script.Obeys.left_bind worker fun result => obeys_goOn id module specifier result
  have same : Script.left (runLoad (.request id module specifier)) worker =
      Script.left (importModule referrer specifier >>= goOn id module specifier) worker := by
    rw [Script.left, runLoad_request, bind_of_ok found]
    rfl
  rw [← left_eq_final, same]
  exact evolves.reads

end Hosted
end Isolate
