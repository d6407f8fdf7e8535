import Isolate.Proofs.Flight.Independence

/-!
# Waiters leave quietly

A future that does not lead a load can be dropped without anybody noticing: nothing reads what becomes
of it, though the leader that it waits for still has it among its waiters.
-/

namespace Isolate.Flight

variable {Key Value : Type} [DecidableEq Key] {f g e : Flight Key Value} {i j : Nat} {key : Key}
  {action : Action Key Value}

/-- Two flights differ at most in a future that leads in neither. -/
structure ApartFrom (i : Nat) (f g : Flight Key Value) : Prop where
  created : i < f.futures.length
  length : f.futures.length = g.futures.length
  futures (j : Nat) : j ≠ i → f.futures[j]? = g.futures[j]?
  table : f.table = g.table
  loads : f.loads = g.loads
  idle (u : Future Key Value) : f.futures[i]? = some u → u.phase ≠ .leading
  idle' (u : Future Key Value) : g.futures[i]? = some u → u.phase ≠ .leading

namespace ApartFrom

variable {f' g' : Flight Key Value} {change : Nat → Future Key Value → Future Key Value}

omit [DecidableEq Key] in
theorem refl (created : i < f.futures.length)
    (idle : ∀ u, f.futures[i]? = some u → u.phase ≠ .leading) : ApartFrom i f f :=
  ⟨created, rfl, fun _ _ => rfl, rfl, rfl, idle, idle⟩

omit [DecidableEq Key] in
theorem symm (h : ApartFrom i f g) : ApartFrom i g f :=
  ⟨h.length ▸ h.created, h.length.symm, fun j other => (h.futures j other).symm, h.table.symm,
    h.loads.symm, h.idle', h.idle⟩

omit [DecidableEq Key] in
theorem trans (h : ApartFrom i f g) (h' : ApartFrom i g e) : ApartFrom i f e :=
  ⟨h.created, h.length.trans h'.length, fun j other => (h.futures j other).trans (h'.futures j other),
    h.table.trans h'.table, h.loads.trans h'.loads, h.idle, h'.idle'⟩

theorem entry (h : ApartFrom i f g) : f.entry? key = g.entry? key := lookup_congr h.table

omit [DecidableEq Key] in
theorem length_moved (moved : Moved change f f') : f'.futures.length = f.futures.length := by
  refine Nat.le_antisymm ?_ ?_
  · rw [← List.getElem?_eq_none_iff, moved.futures, List.getElem?_eq_none (Nat.le_refl _)]
    rfl
  · rw [← List.getElem?_eq_none_iff]
    have none := moved.futures f'.futures.length
    rw [List.getElem?_eq_none (Nat.le_refl _)] at none
    exact Option.map_eq_none_iff.mp none.symm

omit [DecidableEq Key] in
/-- The same change in both flights, which makes no leader of the future between them. -/
theorem move (h : ApartFrom i f g) (left : Moved change f f') (right : Moved change g g')
    (table : f'.table = g'.table) (loads : f'.loads = g'.loads)
    (calm : ∀ u, u.phase ≠ .leading → (change i u).phase ≠ .leading) : ApartFrom i f' g' where
  created := length_moved left ▸ h.created
  length := by rw [length_moved left, length_moved right, h.length]
  futures j other := by rw [left.futures, right.futures, h.futures j other]
  table := table
  loads := loads
  idle u found := by
    rw [left.futures, Option.map_eq_some_iff] at found
    obtain ⟨old, found, rfl⟩ := found
    exact calm old (h.idle old found)
  idle' u found := by
    rw [right.futures, Option.map_eq_some_iff] at found
    obtain ⟨old, found, rfl⟩ := found
    exact calm old (h.idle' old found)

section Others

variable (h : ApartFrom i f g) (other : j ≠ i)
include h other

omit [DecidableEq Key] in
theorem setPhase (phase : Phase Value) : ApartFrom i (f.setPhase j phase) (g.setPhase j phase) :=
  h.move (.setPhase ..) (.setPhase ..) h.table h.loads fun _ idle => by rwa [if_neg other]

omit [DecidableEq Key] in
theorem settleLoad (value : Value) : ApartFrom i (f.settleLoad j value) (g.settleLoad j value) :=
  h.move (.settleLoad ..) (.settleLoad ..) h.table h.loads fun _ idle => by rwa [if_neg other]

theorem join (key : Key) : ApartFrom i (f.join j key) (g.join j key) := by
  refine h.move (.join ..) (.join ..) ?_ h.loads fun _ idle => by rwa [if_neg other]
  simp only [Flight.join, table_setPhase, register, h.table]

omit [DecidableEq Key] in
theorem lead (key : Key) : ApartFrom i (f.lead j key) (g.lead j key) := by
  refine h.move (.lead ..) (.lead ..) ?_ ?_ fun _ idle => by rwa [if_neg other]
  · simp only [Flight.lead, table_setPhase, h.table]
  · simp only [loads_lead, h.loads]

theorem retire (key : Key) {told : Phase Value} (own : Phase Value) (isTold : told ≠ .leading) :
    ApartFrom i (f.retire j key told own) (g.retire j key told own) := by
  have right := Moved.retire g j key told own
  rw [← h.entry] at right
  refine h.move (.retire ..) right ?_ ?_ fun u idle => ?_
  · rw [table_retire, table_retire, removeEntry, removeEntry, h.table]
  · rw [loads_retire, loads_retire, h.loads]
  · rw [if_neg other]
    split
    · unfold Future.told
      split
      · exact isTold
      · exact idle
    · exact idle

/-- A move of another future. -/
theorem apply (busy : Bool) (action : Action Key Value) (u : Future Key Value) :
    ApartFrom i ((u.move busy action).2.apply f j u.key) ((u.move busy action).2.apply g j u.key) := by
  have tells : ∀ told own, (u.move busy action).2 = .retire told own → told ≠ .leading := by
    intro told own same
    cases action with
    | start => contradiction
    | poll =>
      simp only [Future.move, Future.polled] at same
      split at same <;> cases same
      simp
    | release =>
      simp only [Future.move] at same
      split at same <;> cases same
    | drop =>
      simp only [Future.move, Future.left] at same
      split at same <;> cases same
      simp
  cases made : (u.move busy action).2 with
  | rest => exact h
  | settle value => exact h.settleLoad other value
  | become phase => exact h.setPhase other phase
  | join => exact h.join other _
  | lead => exact h.lead other _
  | pass value => exact (h.lead other _).retire other _ _ (by simp)
  | retire told own => exact h.retire other _ _ (tells told own made)

end Others

omit [DecidableEq Key] in
theorem of_moved (created : i < f.futures.length)
    (idle : ∀ u, f.futures[i]? = some u → u.phase ≠ .leading) (moved : Moved change f f')
    (table : f'.table = f.table) (loads : f'.loads = f.loads)
    (rests : ∀ j u, j ≠ i → change j u = u)
    (calm : ∀ u, u.phase ≠ .leading → (change i u).phase ≠ .leading) : ApartFrom i f f' where
  created := created
  length := (length_moved moved).symm
  futures j other := by
    have same : change j = id := funext fun u => rests j u other
    rw [moved.futures, same, Option.map_id, id]
  table := table.symm
  loads := loads.symm
  idle := idle
  idle' u found := by
    rw [moved.futures, Option.map_eq_some_iff] at found
    obtain ⟨old, found, rfl⟩ := found
    exact calm old (idle old found)

/-- What becomes of a future that does not lead and is not polled touches nothing else. -/
theorem of_own (created : i < f.futures.length)
    (idle : ∀ u, f.futures[i]? = some u → u.phase ≠ .leading)
    (target : action.target? = some i) (unpolled : action ≠ .poll i) :
    ApartFrom i f (f.act action).2 := by
  cases found : f.futures[i]? with
  | none =>
    rw [act_of_none found target]
    exact .refl created idle
  | some u =>
    rw [act_eq found target]
    cases action with
    | start => contradiction
    | poll j =>
      cases target
      contradiction
    | release j value =>
      by_cases open' : u.phase.isLive && u.outcome.isNone
      · rw [Future.move, if_pos open']
        exact .of_moved created idle (.settleLoad ..) rfl rfl (fun _ _ other => if_neg other.symm)
          fun _ calm => by rwa [if_pos rfl]
      · rw [Future.move, if_neg open']
        exact .refl created idle
    | drop j =>
      cases phase : u.phase with
      | leading => exact absurd phase (idle u found)
      | done value =>
        rw [Future.move, Future.left, phase]
        exact .refl created idle
      | fresh | waiting | sent | cancelled | dropped =>
        rw [Future.move, Future.left, phase]
        exact .of_moved created idle (.setPhase ..) rfl rfl (fun _ _ other => if_neg other.symm)
          fun _ _ => by simp

omit [DecidableEq Key] in
theorem start (h : ApartFrom i f g) (key : Key) (outcome : Option Value) :
    ApartFrom i (f.start key outcome) (g.start key outcome) where
  created := by simpa using Nat.lt_succ_of_lt h.created
  length := by simp [h.length]
  futures j other := by
    rw [futures_start, futures_start, List.getElem?_append, List.getElem?_append, h.length,
      h.futures j other]
  table := h.table
  loads := h.loads
  idle u found := by
    rw [futures_start, List.getElem?_append_left h.created] at found
    exact h.idle u found
  idle' u found := by
    rw [futures_start, List.getElem?_append_left (h.length ▸ h.created)] at found
    exact h.idle' u found

/-- Whatever is done, short of polling the future, returns the same in both flights, and they still
differ in that future only. -/
theorem act (h : ApartFrom i f g) (unpolled : action ≠ .poll i) :
    (f.act action).1 = (g.act action).1 ∧ ApartFrom i (f.act action).2 (g.act action).2 := by
  cases target : action.target? with
  | none =>
    cases action with
    | start key outcome => exact ⟨rfl, h.start key outcome⟩
    | poll | release | drop => contradiction
  | some j =>
    by_cases same : j = i
    · subst same
      have silent (f : Flight Key Value) : (f.act action).1 = none := by
        cases action with
        | poll =>
          cases target
          contradiction
        | start | release | drop => rfl
      exact ⟨(silent f).trans (silent g).symm,
        (of_own h.created h.idle target unpolled).symm.trans
          (h.trans (of_own h.symm.created h.idle' target unpolled))⟩
    · have again := h.futures j same
      cases found : f.futures[j]? with
      | none =>
        rw [act_of_none found target, act_of_none (again ▸ found) target]
        exact ⟨rfl, h⟩
      | some u =>
        have busy : g.isInFlight u.key = f.isInFlight u.key := by
          rw [isInFlight, isInFlight, h.entry]
        rw [act_eq found target, act_eq (again ▸ found) target, busy]
        exact ⟨rfl, h.apply same _ action u⟩

omit [DecidableEq Key] in
/-- The other futures can do the same in both flights. -/
theorem enabled (h : ApartFrom i f g) (elsewhere : action.target? ≠ some i) :
    f.Enabled action ↔ g.Enabled action := by
  cases target : action.target? with
  | none =>
    cases action with
    | start => rfl
    | poll | release | drop => contradiction
  | some j =>
    have again := h.futures j fun same => elsewhere (same ▸ target)
    cases found : f.futures[j]? with
    | some u => exact enabled_congr found (again ▸ found) target
    | none =>
      rw [found] at again
      cases action with
      | start => contradiction
      | poll | drop =>
        cases target
        simp only [Enabled, isLive, found, ← again]
      | release j value =>
        cases target
        simp only [Enabled, release, found, ← again]

/-- The run lemma: two flights that differ in one future differ in it only as long as it is not polled. -/
theorem after (h : ApartFrom i f g) {later : List (Action Key Value)}
    (unpolled : ∀ action ∈ later, action ≠ .poll i) :
    ApartFrom i (f.after later) (g.after later) := by
  induction later generalizing f g with
  | nil => exact h
  | cons action later ih =>
    obtain ⟨unpolled, unpolledLater⟩ := List.forall_mem_cons.mp unpolled
    exact ih (h.act unpolled).2 unpolledLater

end ApartFrom

/-- In every state of a run, actions on futures of different keys can change places. Each returns what
it would return without the other and can do something exactly if it could without the other, and
either order leaves the same futures, the same entry of every key, the same keys loading and the same
loads started. A future that does not execute a load can be dropped without changing what is loading,
and from then on, compared with keeping it and never polling it again, whatever is done to the others
returns the same and leaves them the same. -/
theorem keys_are_independent_and_waiters_leave_quietly (actions : List (Action Key Value)) :
    let f := after {} actions
    (∀ i j u v a b, f.futures[i]? = some u → f.futures[j]? = some v → u.key ≠ v.key →
      a.target? = some i → b.target? = some j →
        let ab := (f.act a).2.act b
        let ba := (f.act b).2.act a
        ba.1 = (f.act a).1 ∧ ab.1 = (f.act b).1 ∧
          ((f.act b).2.Enabled a ↔ f.Enabled a) ∧ ((f.act a).2.Enabled b ↔ f.Enabled b) ∧
          ab.2.futures = ba.2.futures ∧ (∀ key, entry? ab.2 key = entry? ba.2 key) ∧
          ab.2.keys.Perm ba.2.keys ∧ ab.2.loads.Perm ba.2.loads) ∧
    ∀ i u, f.futures[i]? = some u → (∀ key, ¬f.Executes i key) →
      (f.drop i).keys = f.keys ∧
        ∀ later, (∀ action ∈ later, action ≠ .poll i) →
          let kept := f.after later
          let left := (f.drop i).after later
          left.table = kept.table ∧ left.loads = kept.loads ∧
            (∀ j, j ≠ i → left.futures[j]? = kept.futures[j]?) ∧
            ∀ action, action.target? ≠ some i →
              (left.act action).1 = (kept.act action).1 ∧
                (left.Enabled action ↔ kept.Enabled action) := by
  intro f
  have sound : Sound f := sound_empty.after actions
  constructor
  · intro i j u v a b here there apart first second ab ba
    obtain ⟨resultA, resultB, alike⟩ := sound.commute here there apart first second
    have soundAB : Sound ab.2 := (sound.act a).act b
    have soundBA : Sound ba.2 := (sound.act b).act a
    have besideA : AlikeOn v.key f (f.act a).2 := sound.frame here apart first
    have besideB : AlikeOn u.key f (f.act b).2 := sound.frame there apart.symm second
    exact ⟨resultA, resultB, enabled_congr (besideB.found here) here first,
      enabled_congr (besideA.found there) there second, futures_eq_of_alikeOn alike,
      fun key => (alike key).entry, soundAB.keys_perm soundBA alike,
      soundAB.loads_perm soundBA alike⟩
  · intro i u found unled
    have idle (u : Future Key Value) (here : f.futures[i]? = some u) : u.phase ≠ .leading :=
      fun leads => unled u.key (sound.executes_iff.mpr (leads ▸ at_of_found here))
    have created : i < f.futures.length := (List.getElem?_eq_some_iff.mp found).1
    have own : (Action.drop i : Action Key Value).target? = some i := rfl
    have quiet : ApartFrom i f (f.drop i) := .of_own created idle own (by simp)
    refine ⟨by rw [keys, keys, quiet.table], fun later unpolled => ?_⟩
    have still := quiet.after unpolled
    refine ⟨still.table.symm, still.loads.symm, fun j other => (still.futures j other).symm,
      fun action elsewhere => ?_⟩
    have unpolled : action ≠ .poll i := by
      rintro rfl
      exact elsewhere rfl
    exact ⟨(still.act unpolled).1.symm, (still.enabled elsewhere).symm⟩

end Isolate.Flight
