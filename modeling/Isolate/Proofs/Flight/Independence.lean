import Isolate.Proofs.Flight.Table

/-!
# Keys are independent

What an action does is decided by its future and by whether the key of the future is loading. It reads
and changes nothing but the futures of the key and the entry of the key, so actions on futures of
different keys can change places.
-/

namespace Isolate.Flight

variable {Key Value : Type}

/-- The future that an action is about. -/
def Action.target? : Action Key Value → Option Nat
  | .start _ _ => none
  | .poll i => some i
  | .release i _ => some i
  | .drop i => some i

/-- What an action on a future does to a flight. -/
inductive Move (Value : Type) where
  | rest
  /-- The load of the future can end. -/
  | settle (value : Value)
  /-- Only the future itself comes to another phase. -/
  | become (phase : Phase Value)
  | join
  | lead
  /-- The future leads its load and ends it. -/
  | pass (value : Value)
  | retire (told own : Phase Value)

def Future.polled (u : Future Key Value) (busy : Bool) : Option Value × Move Value :=
  match u.phase, u.outcome, busy with
  | .fresh, _, true => (none, .join)
  | .fresh, none, false => (none, .lead)
  | .fresh, some value, false => (some value, .pass value)
  | .cancelled, _, true => (none, .join)
  | .cancelled, none, false => (none, .lead)
  | .cancelled, some value, false => (some value, .pass value)
  | .leading, some value, _ => (some value, .retire (.sent value) (.done value))
  | .sent value, _, _ => (some value, .become (.done value))
  | _, _, _ => (none, .rest)

def Future.left (u : Future Key Value) : Move Value :=
  match u.phase with
  | .done _ => .rest
  | .leading => .retire .cancelled .dropped
  | _ => .become .dropped

def Future.move (u : Future Key Value) (busy : Bool) : Action Key Value → Option Value × Move Value
  | .start _ _ => (none, .rest)
  | .poll _ => u.polled busy
  | .release _ value => (none, if u.phase.isLive && u.outcome.isNone then .settle value else .rest)
  | .drop _ => (none, u.left)

variable [DecidableEq Key] {f g e : Flight Key Value} {i j : Nat} {key k : Key}
  {u v : Future Key Value} {action : Action Key Value}

def Move.apply (f : Flight Key Value) (i : Nat) (key : Key) : Move Value → Flight Key Value
  | rest => f
  | settle value => f.settleLoad i value
  | become phase => f.setPhase i phase
  | join => f.join i key
  | lead => f.lead i key
  | pass value => (f.lead i key).retire i key (.sent value) (.done value)
  | retire told own => f.retire i key told own

theorem enter_eq (contends : u.phase.Contends) :
    f.enter i u = ((u.polled (f.isInFlight u.key)).1,
      (u.polled (f.isInFlight u.key)).2.apply f i u.key) := by
  unfold enter
  by_cases busy : f.isInFlight u.key
  · rcases contends with phase | phase <;> simp [busy, Future.polled, phase, Move.apply, Flight.join]
  · rcases contends with phase | phase <;> cases outcome : u.outcome <;>
      simp [busy, Future.polled, phase, outcome, pollLeader, Move.apply, Flight.lead, Flight.retire]

/-- What an action does is decided by its future and by whether the key of it is loading. -/
theorem act_eq (found : f.futures[i]? = some u) (target : action.target? = some i) :
    f.act action = ((u.move (f.isInFlight u.key) action).1,
      (u.move (f.isInFlight u.key) action).2.apply f i u.key) := by
  obtain ⟨key, phase, outcome⟩ := u
  cases action with
  | start => contradiction
  | poll j =>
    cases target
    cases phase with
    | fresh => simpa [act, poll, found, Future.move] using enter_eq (f := f) (i := i) (.inl rfl)
    | cancelled => simpa [act, poll, found, Future.move] using enter_eq (f := f) (i := i) (.inr rfl)
    | leading =>
      cases outcome <;>
        simp [act, poll, found, Future.move, Future.polled, pollLeader, Move.apply, Flight.retire]
    | waiting | sent | done | dropped =>
      simp [act, poll, found, Future.move, Future.polled, Move.apply]
  | release j value =>
    cases target
    cases outcome with
    | none =>
      by_cases live : phase.isLive <;>
        simp [act, release, found, Future.move, live, Move.apply, settleLoad]
    | some known => simp [act, release, found, Future.move, Move.apply]
  | drop j =>
    cases target
    cases phase <;> simp [act, drop, found, Future.move, Future.left, Move.apply, Flight.retire]

theorem act_of_none (absent : f.futures[i]? = none) (target : action.target? = some i) :
    f.act action = (none, f) := by
  cases action with
  | start => contradiction
  | poll j | release j value | drop j =>
    cases target
    simp [act, poll, release, drop, absent]

def seen (f : Flight Key Value) (key : Key) (i : Nat) : Option (Future Key Value) :=
  f.futures[i]?.filter fun u => u.key = key

theorem seen_eq_some : f.seen key i = some u ↔ f.futures[i]? = some u ∧ u.key = key := by
  simp [seen, Option.filter_eq_some_iff]

/-- Two flights have the same futures for a key, the same entry of it and the same loads. -/
structure AlikeOn (key : Key) (f g : Flight Key Value) : Prop where
  seen (i : Nat) : f.seen key i = g.seen key i
  entry : f.entry? key = g.entry? key
  loads (i : Nat) : (f.seen key i).isSome → f.loads.count i = g.loads.count i

/-- One flight comes from another by changing each future in some way that keeps its key. -/
structure Moved (change : Nat → Future Key Value → Future Key Value) (f g : Flight Key Value) :
    Prop where
  futures (i : Nat) : g.futures[i]? = f.futures[i]?.map (change i)
  key (i : Nat) (u : Future Key Value) : (change i u).key = u.key

namespace Moved

variable {change : Nat → Future Key Value → Future Key Value}

theorem seen (h : Moved change f g) : g.seen key i = (f.seen key i).map (change i) := by
  rw [Flight.seen, h.futures, Flight.seen]
  cases f.futures[i]? with
  | none => rfl
  | some u => by_cases same : u.key = key <;> simp [Option.filter, h.key, same]

omit [DecidableEq Key] in
theorem setPhase (f : Flight Key Value) (i : Nat) (phase : Phase Value) :
    Moved (fun j u => if i = j then { u with phase } else u) f (f.setPhase i phase) where
  futures _ := futures_setPhase ..
  key _ _ := by split <;> rfl

omit [DecidableEq Key] in
theorem settleLoad (f : Flight Key Value) (i : Nat) (value : Value) :
    Moved (fun j u => if i = j then { u with outcome := some value } else u) f
      (f.settleLoad i value) where
  futures _ := futures_settleLoad ..
  key _ _ := by split <;> rfl

theorem join (f : Flight Key Value) (i : Nat) (key : Key) :
    Moved (fun j u => if i = j then { u with phase := .waiting } else u) f (f.join i key) :=
  have moved := setPhase (f.register key i) i .waiting
  ⟨moved.futures, moved.key⟩

omit [DecidableEq Key] in
theorem lead (f : Flight Key Value) (i : Nat) (key : Key) :
    Moved (fun j u => if i = j then { u with phase := .leading } else u) f (f.lead i key) :=
  have moved := setPhase { f with table := f.table ++ [(key, [])], loads := f.loads ++ [i] } i .leading
  ⟨moved.futures, moved.key⟩

theorem retire (f : Flight Key Value) (i : Nat) (key : Key) (told own : Phase Value) :
    Moved (fun j u => if i = j then { u with phase := own }
      else if j ∈ (f.entry? key).getD [] then u.told told else u) f (f.retire i key told own) where
  futures _ := futures_retire ..
  key j u := by
    split
    · rfl
    · split <;> simp

end Moved

namespace AlikeOn

variable {p q : Flight Key Value} {change : Nat → Future Key Value → Future Key Value}

theorem refl : AlikeOn key f f := ⟨fun _ => rfl, rfl, fun _ _ => rfl⟩

theorem symm (h : AlikeOn key f g) : AlikeOn key g f where
  seen i := (h.seen i).symm
  entry := h.entry.symm
  loads i known := (h.loads i (h.seen i ▸ known)).symm

theorem trans (h : AlikeOn key f g) (h' : AlikeOn key g e) : AlikeOn key f e where
  seen i := (h.seen i).trans (h'.seen i)
  entry := h.entry.trans h'.entry
  loads i known := (h.loads i known).trans (h'.loads i (h.seen i ▸ known))

theorem found (h : AlikeOn u.key f g) (found : f.futures[i]? = some u) :
    g.futures[i]? = some u :=
  (seen_eq_some.mp ((h.seen i).symm.trans (seen_eq_some.mpr ⟨found, rfl⟩))).1

theorem isInFlight (h : AlikeOn key f g) : f.isInFlight key = g.isInFlight key := by
  rw [Flight.isInFlight, Flight.isInFlight, h.entry]

/-- Flights that are alike on a key stay so under changes that are the same for both. -/
theorem move (h : AlikeOn key f g) (left : Moved change f p) (right : Moved change g q)
    (entry : p.entry? key = q.entry? key)
    (loads : ∀ i, (f.seen key i).isSome → p.loads.count i = q.loads.count i) :
    AlikeOn key p q where
  seen i := by rw [left.seen, right.seen, h.seen]
  entry := entry
  loads i known := loads i (by simpa [left.seen] using known)

theorem setPhase (h : AlikeOn key f g) (i : Nat) (phase : Phase Value) :
    AlikeOn key (f.setPhase i phase) (g.setPhase i phase) :=
  h.move (.setPhase ..) (.setPhase ..) h.entry h.loads

theorem settleLoad (h : AlikeOn key f g) (i : Nat) (value : Value) :
    AlikeOn key (f.settleLoad i value) (g.settleLoad i value) :=
  h.move (.settleLoad ..) (.settleLoad ..) h.entry h.loads

theorem join (h : AlikeOn key f g) (i : Nat) : AlikeOn key (f.join i key) (g.join i key) :=
  h.move (.join ..) (.join ..) (by rw [lookup_join, lookup_join, h.entry]) h.loads

theorem lead (h : AlikeOn key f g) (i : Nat) : AlikeOn key (f.lead i key) (g.lead i key) := by
  refine h.move (.lead ..) (.lead ..) ?_ fun j known => ?_
  · have same := h.entry
    simp only [ entry?] at same
    simp only [Flight.lead, entry?, table_setPhase, List.lookup_append, same]
  · simp only [loads_lead, List.count_append, h.loads j known]

theorem retire (h : AlikeOn key f g) (i : Nat) (told own : Phase Value) :
    AlikeOn key (f.retire i key told own) (g.retire i key told own) := by
  have right := Moved.retire g i key told own
  rw [← h.entry] at right
  refine h.move (.retire ..) right ?_ fun j known => ?_
  · rw [lookup_retire, lookup_retire, h.entry]
  · rw [loads_retire, loads_retire, h.loads j known]

/-- An action on a future for a key does the same in flights that are alike on the key. -/
theorem act (h : AlikeOn u.key f g) (found : f.futures[i]? = some u)
    (target : action.target? = some i) :
    (f.act action).1 = (g.act action).1 ∧ AlikeOn u.key (f.act action).2 (g.act action).2 := by
  rw [act_eq found target, act_eq (h.found found) target, h.isInFlight]
  refine ⟨rfl, ?_⟩
  cases (u.move (g.isInFlight u.key) action).2 with
  | rest => exact h
  | settle value => exact h.settleLoad i value
  | become phase => exact h.setPhase i phase
  | join => exact h.join i
  | lead => exact h.lead i
  | pass value => exact (h.lead i).retire i _ _
  | retire told own => exact h.retire i told own

/-- A flight is like another on a key whose futures and whose entry are not changed. -/
theorem of_moved (moved : Moved change f g)
    (rests : ∀ i u, f.futures[i]? = some u → u.key = key → change i u = u)
    (entry : g.entry? key = f.entry? key)
    (loads : ∀ i, (f.seen key i).isSome → g.loads.count i = f.loads.count i) :
    AlikeOn key f g where
  seen i := by
    rw [moved.seen]
    cases known : f.seen key i with
    | none => rfl
    | some u =>
      obtain ⟨found, same⟩ := seen_eq_some.mp known
      rw [Option.map_some, rests i u found same]
  entry := entry.symm
  loads i known := (loads i known).symm

variable (found : f.futures[i]? = some u) (other : u.key ≠ key)
include found other

omit [DecidableEq Key] in
/-- The future that moves is none for the key. -/
theorem ne_of_key (there : f.futures[j]? = some v) (same : v.key = key) : i ≠ j := by
  rintro rfl
  rw [found, Option.some.injEq] at there
  exact other (there ▸ same)

theorem of_setPhase (phase : Phase Value) : AlikeOn key f (f.setPhase i phase) :=
  of_moved (.setPhase ..) (fun _ _ there same => if_neg (ne_of_key found other there same)) rfl
    fun _ _ => rfl

theorem of_settleLoad (value : Value) : AlikeOn key f (f.settleLoad i value) :=
  of_moved (.settleLoad ..) (fun _ _ there same => if_neg (ne_of_key found other there same)) rfl
    fun _ _ => rfl

theorem of_join : AlikeOn key f (f.join i u.key) := by
  refine of_moved (.join ..)
    (fun _ _ there same => if_neg (ne_of_key found other there same)) ?_ fun _ _ => rfl
  rw [lookup_join]
  simp [Ne.symm other]

theorem of_lead (free : u.key ∉ f.keys) : AlikeOn key f (f.lead i u.key) := by
  refine of_moved (.lead ..)
    (fun _ _ there same => if_neg (ne_of_key found other there same)) ?_ fun j known => ?_
  · rw [lookup_lead f i free, if_neg (Ne.symm other)]
  · obtain ⟨v, known⟩ := Option.isSome_iff_exists.mp known
    obtain ⟨there, same⟩ := seen_eq_some.mp known
    rw [loads_lead, List.count_append, List.count_singleton,
      if_neg (by simpa using ne_of_key found other there same), Nat.add_zero]

/-- A leader tells only futures of its own key. -/
theorem of_retire (h : Sound f) (told own : Phase Value) :
    AlikeOn key f (f.retire i u.key told own) := by
  refine of_moved (.retire ..) (fun j v there same => ?_) ?_ fun j known => ?_
  · rw [if_neg (ne_of_key found other there same)]
    refine if_neg fun member => other ?_
    cases entry : f.entry? u.key with
    | none =>
      rw [entry] at member
      contradiction
    | some waiters =>
      rw [entry, Option.getD_some] at member
      have own := at_of_found there
      rcases h.registered _ waiters entry j member with waits | dropped
      · exact (own.unique waits).1.trans same
      · exact (own.unique dropped).1.trans same
  · rw [lookup_retire, if_neg (Ne.symm other)]
  · rw [loads_retire]

end AlikeOn

/-- An action on a future changes nothing that belongs to other keys. -/
theorem Sound.frame (h : Sound f) (found : f.futures[i]? = some u) (other : u.key ≠ key)
    (target : action.target? = some i) : AlikeOn key f (f.act action).2 := by
  have step := step_act f action
  generalize (f.act action).2 = g, (f.act action).1 = result at step
  cases step with
  | rest => exact .refl
  | start => contradiction
  | release value there =>
    cases target
    exact .of_settleLoad found other value
  | join there =>
    cases target
    cases found.symm.trans there
    exact .of_join found other
  | lead there contends free =>
    cases target
    cases found.symm.trans there
    exact .of_lead found other free
  | pass there contends free =>
    cases target
    cases found.symm.trans there
    have led : (f.lead i u.key).futures[i]? = some { u with phase := .leading } := by
      rw [(Moved.lead f i u.key).futures, found, Option.map_some, if_pos rfl]
    exact (AlikeOn.of_lead found other free).trans
      (.of_retire led other (h.lead (at_of_found found) contends free) _ _)
  | finish there =>
    cases target
    cases found.symm.trans there
    exact .of_retire found other h _ _
  | receive =>
    cases target
    exact .of_setPhase found other _
  | abandon there =>
    cases target
    cases found.symm.trans there
    exact .of_retire found other h _ _
  | leave =>
    cases target
    exact .of_setPhase found other _

/-- An action can do something: its future is there and neither completed nor dropped, and what its load
ends with is not known when that is what the action says. -/
def Enabled (f : Flight Key Value) : Action Key Value → Prop
  | .start _ _ => True
  | .poll i => f.isLive i
  | .release i value => (f.release i value).1
  | .drop i => f.isLive i

omit [DecidableEq Key] in
theorem enabled_congr (found : f.futures[i]? = some u) (again : g.futures[i]? = some u)
    (target : action.target? = some i) : f.Enabled action ↔ g.Enabled action := by
  obtain ⟨key, phase, outcome⟩ := u
  cases action with
  | start => contradiction
  | poll j | drop j =>
    cases target
    simp only [Enabled, isLive, found, again]
  | release j value =>
    cases target
    cases outcome with
    | none => by_cases live : phase.isLive <;> simp [Enabled, release, found, again, live]
    | some known => simp [Enabled, release, found, again]

theorem futures_eq_of_alikeOn (h : ∀ key, AlikeOn key f g) : f.futures = g.futures :=
  List.ext_getElem? fun _ => Option.ext fun u =>
    ⟨fun found => (h u.key).found found, fun found => (h u.key).symm.found found⟩

/-- Flights that are alike on every key are loading the same keys. -/
theorem Sound.keys_perm (hf : Sound f) (hg : Sound g) (h : ∀ key, AlikeOn key f g) :
    f.keys.Perm g.keys := by
  refine (List.perm_ext_iff_of_nodup hf.nodup hg.nodup).mpr fun key => ?_
  rw [mem_keys_iff, mem_keys_iff, (h key).entry]

/-- Flights that are alike on every key have started the same loads. -/
theorem Sound.loads_perm (hf : Sound f) (hg : Sound g) (h : ∀ key, AlikeOn key f g) :
    f.loads.Perm g.loads := by
  refine List.perm_iff_count.mpr fun i => ?_
  cases found : f.futures[i]? with
  | some u =>
    have known : f.seen u.key i = some u := seen_eq_some.mpr ⟨found, rfl⟩
    exact (h u.key).loads i (known ▸ rfl)
  | none =>
    have beyond : f.futures.length ≤ i := List.getElem?_eq_none_iff.mp found
    rw [List.count_eq_zero.mpr fun started => Nat.not_lt.mpr beyond (hf.created i started),
      List.count_eq_zero.mpr fun started => Nat.not_lt.mpr beyond
        (futures_eq_of_alikeOn h ▸ hg.created i started)]

/-- Actions on futures of different keys can change places. -/
theorem Sound.commute {a b : Action Key Value} (h : Sound f) (here : f.futures[i]? = some u)
    (there : f.futures[j]? = some v) (apart : u.key ≠ v.key) (first : a.target? = some i)
    (second : b.target? = some j) :
    ((f.act b).2.act a).1 = (f.act a).1 ∧ ((f.act a).2.act b).1 = (f.act b).1 ∧
      ∀ key, AlikeOn key ((f.act a).2.act b).2 ((f.act b).2.act a).2 := by
  have besideA : AlikeOn v.key f (f.act a).2 := h.frame here apart first
  have besideB : AlikeOn u.key f (f.act b).2 := h.frame there apart.symm second
  obtain ⟨resultA, alikeA⟩ := besideB.act here first
  obtain ⟨resultB, alikeB⟩ := besideA.act there second
  have frameA {key : Key} (other : u.key ≠ key) : AlikeOn key (f.act b).2 ((f.act b).2.act a).2 :=
    (h.act b).frame (besideB.found here) other first
  have frameB {key : Key} (other : v.key ≠ key) : AlikeOn key (f.act a).2 ((f.act a).2.act b).2 :=
    (h.act a).frame (besideA.found there) other second
  refine ⟨resultA.symm, resultB.symm, fun key => ?_⟩
  by_cases ours : u.key = key
  · subst ours
    exact (frameB apart.symm).symm.trans alikeA
  by_cases theirs : v.key = key
  · subst theirs
    exact alikeB.symm.trans (frameA apart)
  · exact ((h.frame here ours first).trans (frameB theirs)).symm.trans
      ((h.frame there theirs second).trans (frameA ours))

end Isolate.Flight
