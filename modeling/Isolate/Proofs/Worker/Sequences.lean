import Isolate.Proofs.Worker.Imports
import Mathlib.Data.Nat.Init

/-!
# Imports one after another

A sequence of deeds is done to a worker. Imports are resolved, failures are noted and taken, and in
between anything happens to the files and to the world. A record that was found once is found ever
after, and its path is not read any more.
-/

namespace Isolate

variable {σ : Type}

/-- No spelling of a path was read from a store since an earlier moment. -/
def Store.Watched.Spares (before after : Store.Watched σ) (path : Path) : Prop :=
  ∃ reads, after.reads = before.reads ++ reads ∧ ∀ read ∈ reads, ¬read.1.same path

namespace Store.Watched.Spares

variable {first second third : Store.Watched σ} {path : Path}

theorem of_eq (h : second.reads = first.reads) : first.Spares second path :=
  ⟨[], by simp [h], by simp⟩

theorem trans (earlier : first.Spares second path) (later : second.Spares third path) :
    first.Spares third path := by
  obtain ⟨reads, same, spared⟩ := earlier
  obtain ⟨reads', same', spared'⟩ := later
  refine ⟨reads ++ reads', by rw [same', same, List.append_assoc], fun read member => ?_⟩
  rcases List.mem_append.mp member with member | member
  · exact spared read member
  · exact spared' read member

end Store.Watched.Spares

/-- What may be done to a worker with a linking session. -/
inductive Worker.Deed (σ : Type) where
  /-- A unit imports a specifier. -/
  | resolve (referrer : Origin) (specifier : Text.Units)
  | bind
  | clearFailures
  | takeFailure (text : List Char) (fallback : Bool)
  /-- Anything happens to the world, to the files and to what is left to do. The session is not
  touched, and nothing is read. -/
  | change (change : Worker (Store.Watched σ) → Worker (Store.Watched σ))

namespace Worker

open Hosted

/-- The record of a path in the session of a worker. -/
def record? (worker : Worker σ) (path : Path) : Option Nat :=
  worker.session.bind (·.record? path)

theorem record?_eq_some_iff {worker : Worker σ} {path : Path} {record : Nat} :
    worker.record? path = some record ↔
      ∃ session, worker.session = some session ∧ session.record? path = some record :=
  Option.bind_eq_some_iff

variable [Store.Source σ]

def act (worker : Worker (Store.Watched σ)) : Deed σ → Worker (Store.Watched σ)
  | .resolve referrer specifier => (importModule referrer specifier).final worker
  | .bind =>
    { worker with session := worker.session.map fun session =>
        session.bind.toOption.getD session }
  | .clearFailures => { worker with session := worker.session.map (·.clearFailures) }
  | .takeFailure text fallback =>
    { worker with session := worker.session.map fun session =>
        (session.takeFailure text fallback).2 }
  | .change change =>
    { change worker with
      session := worker.session
      store := { (change worker).store with reads := worker.store.reads } }

/-- The worker after a sequence of deeds. -/
def after (worker : Worker (Store.Watched σ)) (deeds : List (Deed σ)) :
    Worker (Store.Watched σ) :=
  deeds.foldl act worker

/-- The worker before deed number `n` of a sequence. -/
def state (start : Worker (Store.Watched σ)) (deeds : List (Deed σ)) (n : Nat) :
    Worker (Store.Watched σ) :=
  start.after (deeds.take n)

variable {start worker : Worker (Store.Watched σ)} {deed : Deed σ} {deeds : List (Deed σ)}
  {path : Path} {record : Nat} {n k : Nat}

theorem state_succ (here : deeds[n]? = some deed) :
    start.state deeds (n + 1) = (start.state deeds n).act deed := by
  rw [state, state, after, List.take_add_one, here, List.foldl_append]
  rfl

theorem state_end (ended : deeds[n]? = none) :
    start.state deeds (n + 1) = start.state deeds n := by
  rw [state, state, List.take_add_one, ended, Option.toList_none, List.append_nil]

/-- A deed keeps every record, and reads no path that has one. -/
theorem keeps_record (known : worker.record? path = some record) (deed : Deed σ) :
    (worker.act deed).record? path = some record ∧
      worker.store.Spares (worker.act deed).store path := by
  obtain ⟨session, here, known⟩ := record?_eq_some_iff.mp known
  have kept (session' : Session Nat) (same : session'.record? path = session.record? path)
      {next : Worker (Store.Watched σ)} (left : next.session = some session') :
      next.record? path = some record :=
    record?_eq_some_iff.mpr ⟨session', left, same.trans known⟩
  cases deed with
  | resolve referrer specifier =>
    obtain ⟨read, result, next, resolves, left, reads, _⟩ :=
      importModule_resolves here referrer specifier
    refine ⟨record?_eq_some_iff.mpr ⟨next, left, resolves.keeps_record known⟩, read.toList, reads,
      fun read' member => ?_⟩
    obtain ⟨q, readable⟩ := read'
    obtain rfl := Option.mem_toList.mp member
    intro same
    have unknown := resolves.unknown_of_read
    rw [Session.record?_same same, known] at unknown
    contradiction
  | bind =>
    have same : (session.bind.toOption.getD session).record? path = session.record? path := by
      cases bound : session.bind with
      | error => rfl
      | ok next => exact Session.record?_bind bound
    exact ⟨kept _ same (by rw [act, here]; rfl), .of_eq rfl⟩
  | clearFailures =>
    exact ⟨kept _ Session.record?_clearFailures (by rw [act, here]; rfl), .of_eq rfl⟩
  | takeFailure text fallback =>
    exact ⟨kept _ (Session.record?_takeFailure text fallback) (by rw [act, here]; rfl), .of_eq rfl⟩
  | change change => exact ⟨kept session rfl (by rw [act, here]), .of_eq rfl⟩

/-- A deed leaves a bound session bound. -/
theorem keeps_bound {session : Session Nat} (here : worker.session = some session)
    (bound : session.isBound) (deed : Deed σ) :
    ∃ next, (worker.act deed).session = some next ∧ next.isBound := by
  cases deed with
  | resolve referrer specifier =>
    obtain ⟨_, _, next, resolves, left, _⟩ := importModule_resolves here referrer specifier
    exact ⟨next, left, resolves.isBound_eq.trans bound⟩
  | bind =>
    refine ⟨session, ?_, bound⟩
    rw [act, here, Option.map_some, Session.bind_of_isBound bound]
    rfl
  | clearFailures => exact ⟨session.clearFailures, by rw [act, here]; rfl, bound⟩
  | takeFailure text fallback =>
    refine ⟨(session.takeFailure text fallback).2, by rw [act, here]; rfl, ?_⟩
    rw [Session.takeFailure]
    split <;> exact bound
  | change change => exact ⟨session, by rw [act, here], bound⟩

/-- A record that was found once is found ever after, and its path is not read any more. -/
theorem keeps_record_later (later : n ≤ k)
    (known : (start.state deeds n).record? path = some record) :
    (start.state deeds k).record? path = some record ∧
      (start.state deeds n).store.Spares (start.state deeds k).store path := by
  induction k, later using Nat.le_induction with
  | base => exact ⟨known, .of_eq rfl⟩
  | succ k _ ih =>
    obtain ⟨still, spared⟩ := ih
    cases here : deeds[k]? with
    | none =>
      rw [state_end here]
      exact ⟨still, spared⟩
    | some deed =>
      rw [state_succ here]
      obtain ⟨next, spared'⟩ := keeps_record still deed
      exact ⟨next, spared.trans spared'⟩

/-- Deed number `n` imports a path, however it is spelled and whoever imports it, and comes to a
record. -/
def Resolves (start : Worker (Store.Watched σ)) (deeds : List (Deed σ)) (n : Nat) (path : Path)
    (record : Nat) : Prop :=
  ∃ referrer specifier target, deeds[n]? = some (.resolve referrer specifier) ∧
    referrer.target specifier.toString = some target ∧ target.same path ∧
    (importModule referrer specifier).value? (start.state deeds n) = some (.ok record)

/-- Deed number `n` reads a path successfully and loads what it read. -/
def Loads (start : Worker (Store.Watched σ)) (deeds : List (Deed σ)) (n : Nat) (path : Path) :
    Prop :=
  ∃ referrer specifier target record, deeds[n]? = some (.resolve referrer specifier) ∧
    (start.state deeds (n + 1)).store.reads =
      (start.state deeds n).store.reads ++ [(target, true)] ∧
    target.same path ∧
    (importModule referrer specifier).value? (start.state deeds n) = some (.ok record)

/-- A worker that resolves an import to a record has a session. -/
theorem exists_session {referrer : Origin} {specifier : Text.Units}
    (value : (importModule referrer specifier).value? worker = some (.ok record)) :
    ∃ session, worker.session = some session := by
  cases here : worker.session with
  | some session => exact ⟨session, rfl⟩
  | none =>
    obtain ⟨_, _, unresolved⟩ := importModule_of_none here
    exact absurd value (unresolved record)

theorem Resolves.known (resolves : start.Resolves deeds n path record) :
    (start.state deeds (n + 1)).record? path = some record := by
  obtain ⟨referrer, specifier, target, here, names, same, value⟩ := resolves
  obtain ⟨session, bound⟩ := exists_session value
  obtain ⟨read, result, next, resolves, left, _, found⟩ :=
    importModule_resolves bound referrer specifier
  obtain rfl := (found record).mp value
  rw [state_succ here]
  refine record?_eq_some_iff.mpr ⟨next, left, ?_⟩
  rw [← Session.record?_same same]
  exact resolves.record?_of_result names

/-- A load is a resolution of its path, before which the path had no record. -/
theorem Loads.resolves (loads : start.Loads deeds n path) :
    (start.state deeds n).record? path = none ∧ ∃ record, start.Resolves deeds n path record := by
  obtain ⟨referrer, specifier, target, record, here, reads, same, value⟩ := loads
  obtain ⟨session, bound⟩ := exists_session value
  obtain ⟨read, result, next, resolves, left, noted, found⟩ :=
    importModule_resolves bound referrer specifier
  rw [state_succ here, act, noted, List.append_cancel_left_eq] at reads
  obtain rfl : read = some (target, true) := by
    cases read with
    | none => contradiction
    | some read => rw [(List.cons.inj reads).1]
  refine ⟨?_, record, referrer, specifier, target, here, resolves.target_of_read, same, value⟩
  rw [record?, bound, Option.bind_some, ← Session.record?_same same]
  exact resolves.unknown_of_read

/-- No path is loaded twice. -/
theorem Loads.not_again (first : start.Loads deeds n path) (later : n < k) :
    ¬start.Loads deeds k path := by
  intro second
  obtain ⟨_, record, resolves⟩ := first.resolves
  obtain ⟨known, _⟩ := keeps_record_later later resolves.known
  rw [second.resolves.1] at known
  contradiction

end Worker
end Isolate
