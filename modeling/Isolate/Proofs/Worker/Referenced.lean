import Isolate.Proofs.Path.Canonical
import Isolate.Proofs.Path.Order
import Isolate.Proofs.Worker.Sequences

/-!
# The paths that imports named

An import adds the path that its specifier names, whatever else becomes of it, and nothing else adds or
removes one. So the paths that a session knows to be named are those that its imports named, in
ascending order, and neither the order of the imports nor what they came to can be seen in them.
-/

namespace Isolate

namespace Path

variable {p q : Path} {ps : List Path}

/-- Inserting into a list of canonical paths adds a canonical path, and nothing else. -/
theorem mem_insertSorted (canonical : p.normalize = p) (all : ∀ r ∈ ps, r.normalize = r) :
    q ∈ p.insertSorted ps ↔ q = p ∨ q ∈ ps := by
  refine ⟨mem_of_mem_insertSorted, fun h => h.elim (fun here => ?_) mem_insertSorted_of_mem⟩
  have inserted : p.isIn (p.insertSorted ps) := isIn_insertSorted.mpr (.inl (beq_self_eq_true _))
  obtain ⟨r, member, same⟩ := List.any_eq_true.mp inserted
  have canonical' : r.normalize = r := by
    rcases mem_of_mem_insertSorted member with rfl | member
    · exact canonical
    · exact all r member
  have equal : r = p := (eq_of_same canonical canonical' same).symm
  rw [here]
  rwa [equal] at member

end Path

theorem Origin.normalize_of_target {referrer : Origin} {specifier : String} {p : Path}
    (h : referrer.target specifier = some p) : p.normalize = p := by
  cases referrer with
  | anonymous => contradiction
  | file path => exact Path.normalize_of_resolve h

namespace Session

variable {ρ : Type} {session next : Session ρ} {referrer : Origin} {specifier : String}
  {read : Option (Path × Bool)} {result : Option ρ}

/-- An import names its path, whatever else becomes of it. -/
theorem Resolves.referenced_eq (h : session.Resolves referrer specifier read result next) :
    next.referenced =
      (referrer.target specifier).elim session.referenced (·.insertSorted session.referenced) := by
  cases h with
  | unnamed target | refused target | reused target | failed target | stopped target =>
    rw [target]
    rfl
  | loaded target =>
    rw [target, accept]
    split <;> rfl

end Session

namespace Worker

open Hosted

variable {σ : Type} [Store.Source σ]

/-- The paths that imports named in a worker. -/
def referenced (worker : Worker σ) : List Path := (worker.session.map (·.referenced)).getD []

/-- The path that a deed names, if it is an import that names one. -/
def Deed.target : Deed σ → Option Path
  | .resolve referrer specifier => referrer.target specifier.toString
  | _ => none

/-- An import among some deeds names a path. -/
def Names (deeds : List (Deed σ)) (path : Path) : Prop := ∃ deed ∈ deeds, deed.target = some path

omit [Store.Source σ] in
theorem Deed.normalize_of_target {deed : Deed σ} {path : Path} (h : deed.target = some path) :
    path.normalize = path := by
  cases deed with
  | resolve => exact Origin.normalize_of_target h
  | bind | clearFailures | takeFailure | change => contradiction

variable {start worker : Worker (Store.Watched σ)} {session : Session Nat} {deed : Deed σ}
  {deeds : List (Deed σ)} {path : Path}

/-- A deed is an import, or it touches the session in nothing but its failures and whether it is
bound. -/
theorem act_cases (here : worker.session = some session) (deed : Deed σ) :
    (∃ referrer specifier, deed = .resolve referrer specifier) ∨
      deed.target = none ∧ (worker.act deed).store.reads = worker.store.reads ∧
        ∃ failures isBound, (worker.act deed).session = some { session with failures, isBound } := by
  cases deed with
  | resolve referrer specifier => exact .inl ⟨referrer, specifier, rfl⟩
  | bind =>
    refine .inr ⟨rfl, rfl, ?_⟩
    rw [act, here, Option.map_some]
    cases bound : session.bind with
    | error => exact ⟨_, _, rfl⟩
    | ok next =>
      rw [Session.eq_of_bind bound]
      exact ⟨_, _, rfl⟩
  | clearFailures =>
    rw [act, here]
    exact .inr ⟨rfl, rfl, _, _, rfl⟩
  | takeFailure text fallback =>
    refine .inr ⟨rfl, rfl, ?_⟩
    rw [act, here, Option.map_some, Session.takeFailure]
    split <;> exact ⟨_, _, rfl⟩
  | change change =>
    rw [act, here]
    exact .inr ⟨rfl, rfl, _, _, rfl⟩

/-- A deed names its path, and leaves the other paths that were named as they are. -/
theorem referenced_act (here : worker.session = some session) (deed : Deed σ) :
    ∃ next, (worker.act deed).session = some next ∧
      next.referenced =
        deed.target.elim session.referenced (·.insertSorted session.referenced) := by
  rcases act_cases here deed with ⟨referrer, specifier, rfl⟩ | ⟨unnamed, _, _, _, left⟩
  · obtain ⟨_, _, next, resolves, left, _⟩ := importModule_resolves here referrer specifier
    exact ⟨next, left, resolves.referenced_eq⟩
  · exact ⟨_, left, by rw [unnamed, Option.elim_none]⟩

/-- From a session whose named paths are canonical and in ascending order, deeds add the paths that
they name, and keep the order. -/
theorem referenced_after (here : worker.session = some session)
    (canonical : ∀ p ∈ session.referenced, p.normalize = p)
    (ascending : Path.Ascending session.referenced) (deeds : List (Deed σ)) :
    ∃ next, (worker.after deeds).session = some next ∧ Path.Ascending next.referenced ∧
      ∀ p, p ∈ next.referenced ↔ Names deeds p ∨ p ∈ session.referenced := by
  induction deeds generalizing worker session with
  | nil => exact ⟨session, here, ascending, fun p => by simp [Names]⟩
  | cons deed deeds ih =>
    obtain ⟨middle, left, added⟩ := referenced_act here deed
    have member (p : Path) :
        p ∈ middle.referenced ↔ deed.target = some p ∨ p ∈ session.referenced := by
      rw [added]
      cases target : deed.target with
      | none => simp
      | some q =>
        rw [Option.elim_some, Path.mem_insertSorted (Deed.normalize_of_target target) canonical,
          Option.some.injEq, eq_comm]
    have canonical' : ∀ p ∈ middle.referenced, p.normalize = p := by
      intro p known
      rcases (member p).mp known with target | known
      · exact Deed.normalize_of_target target
      · exact canonical p known
    have ascending' : Path.Ascending middle.referenced := by
      rw [added]
      cases deed.target with
      | none => exact ascending
      | some q => exact ascending.insertSorted
    obtain ⟨next, left, ascending, named⟩ := ih left canonical' ascending'
    refine ⟨next, left, ascending, fun p => ?_⟩
    rw [named, member, Names, Names, List.exists_mem_cons_iff, or_left_comm, or_assoc]

/-- The paths that imports named are exactly those that the specifiers of the imports resolve to,
whatever became of the imports. They are in ascending order, none is ever removed, and they do not
depend on anything else: in any other session, with any other rules and files, imports of the same
paths in any order leave the same list. -/
theorem referenced_exact (start : Worker (Store.Watched σ)) (session : Session Nat)
    (here : start.session = some session) (fresh : session.referenced = [])
    (deeds : List (Deed σ)) :
    (∀ p, p ∈ (start.after deeds).referenced ↔ Names deeds p) ∧
      Path.Ascending (start.after deeds).referenced ∧
      (∀ n k, n ≤ k → ∀ p ∈ (start.state deeds n).referenced,
        p ∈ (start.state deeds k).referenced) ∧
      ∀ (other : Worker (Store.Watched σ)) (session' : Session Nat) (deeds' : List (Deed σ)),
        other.session = some session' → session'.referenced = [] →
          (∀ p, Names deeds' p ↔ Names deeds p) →
            (other.after deeds').referenced = (start.after deeds).referenced := by
  have exact {start : Worker (Store.Watched σ)} {session : Session Nat}
      (here : start.session = some session) (fresh : session.referenced = [])
      (deeds : List (Deed σ)) :
      Path.Ascending (start.after deeds).referenced ∧
        ∀ p, p ∈ (start.after deeds).referenced ↔ Names deeds p := by
    obtain ⟨next, left, ascending, named⟩ :=
      referenced_after here (by simp [fresh]) (by simp [fresh, Path.Ascending]) deeds
    have same : (start.after deeds).referenced = next.referenced := by rw [referenced, left]; rfl
    simpa [same, fresh] using And.intro ascending named
  obtain ⟨ascending, named⟩ := exact here fresh deeds
  refine ⟨named, ascending, fun n k later p known => ?_,
    fun other session' deeds' here' fresh' same => ?_⟩
  · rw [state, (exact here fresh _).2] at known ⊢
    obtain ⟨deed, member, target⟩ := known
    exact ⟨deed, List.take_subset_take_left deeds later member, target⟩
  · obtain ⟨ascending', named'⟩ := exact here' fresh' deeds'
    exact ascending'.ext ascending fun p => by rw [named', named, same]

/-- Imports by a file and by a unit without a path, none of which comes to a record. -/
theorem referenced_of_refused :
    let start : Worker (Store.Watched Store.Recording) :=
      { world := { objects := #[], scopes := #[] }, session := some { rules := [] },
        store := { store := { inner := {} } } }
    let deeds : List (Deed Store.Recording) :=
      [.resolve (.file ⟨"/a/x.mjs"⟩) (Text.Units.ofString "../b.txt"),
        .resolve .anonymous (Text.Units.ofString "./c.txt"),
        .resolve (.file ⟨"/a/x.mjs"⟩) (Text.Units.ofString "node:fs"),
        .resolve (.file ⟨"/a/x.mjs"⟩) (Text.Units.ofString "/b//./b/../../b.txt"),
        .resolve (.file ⟨"/a/x.mjs"⟩) (Text.Units.ofString "./.")]
    (start.after deeds).referenced = [⟨"/a"⟩, ⟨"/b.txt"⟩] := by
  intro start deeds
  obtain ⟨named, ascending, _⟩ := referenced_exact start { rules := [] } rfl rfl deeds
  have targets : deeds.map Deed.target =
      [some ⟨"/b.txt"⟩, none, none, some ⟨"/b.txt"⟩, some ⟨"/a"⟩] := by decide +kernel
  refine ascending.ext (List.pairwise_pair.mpr (by decide)) fun p => (named p).trans ?_
  rw [Names, ← List.mem_map, targets]
  simp only [List.mem_cons, Option.some.injEq, reduceCtorEq, false_or, List.not_mem_nil, or_false,
    or_self_left, @eq_comm _ p]
  exact or_comm

end Worker
end Isolate
