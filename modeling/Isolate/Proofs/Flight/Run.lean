import Isolate.Flight
import Mathlib.Data.List.Basic

/-!
# Runs of futures

A run is a list of actions on futures, in whatever order they come: a future is created, polled or
dropped, or its load becomes able to end. Three moves carry all that happens to the table. A future
leads a load, it joins the waiters of one, or a leader retires, which closes the entry of its key and
tells the waiters. The lemmas say what a move does to one future and to the entry of one key, so that
later proofs need not open the lists.
-/

namespace Isolate.Flight

variable {Key Value : Type}

/-- What may be done with the futures of a flight. -/
inductive Action (Key Value : Type) where
  | start (key : Key) (outcome : Option Value)
  | poll (id : Nat)
  /-- The load of a future can end with a value from now on. -/
  | release (id : Nat) (value : Value)
  | drop (id : Nat)

section Phases

variable (f : Flight Key Value) (i j : Nat) (phase : Phase Value)

@[simp] theorem futures_setPhase :
    (f.setPhase i phase).futures[j]? =
      f.futures[j]?.map fun u => if i = j then { u with phase } else u := by
  simp [setPhase, List.getElem?_modify]

@[simp] theorem length_setPhase : (f.setPhase i phase).futures.length = f.futures.length :=
  List.length_modify ..

@[simp] theorem table_setPhase : (f.setPhase i phase).table = f.table := rfl

@[simp] theorem loads_setPhase : (f.setPhase i phase).loads = f.loads := rfl

/-- What a future becomes that the leader of its key tells something: only one that waits hears it. -/
def Future.told (u : Future Key Value) (phase : Phase Value) : Future Key Value :=
  match u.phase with
  | .waiting => { u with phase }
  | _ => u

variable (u : Future Key Value)

@[simp] theorem Future.told_key : (u.told phase).key = u.key := by
  unfold told
  split <;> rfl

@[simp] theorem Future.told_outcome : (u.told phase).outcome = u.outcome := by
  unfold told
  split <;> rfl

theorem Future.told_of_ne {u : Future Key Value} (h : u.phase ≠ .waiting) : u.told phase = u := by
  unfold told
  split
  · contradiction
  · rfl

theorem Future.told_of_waiting {u : Future Key Value} (h : u.phase = .waiting) :
    u.told phase = { u with phase } := by
  unfold told
  rw [h]

def tell (f : Flight Key Value) (i : Nat) (phase : Phase Value) : Flight Key Value :=
  match f.futures[i]?.map Future.phase with
  | some .waiting => f.setPhase i phase
  | _ => f

theorem notify_cons (waiters : List Nat) :
    f.notify (i :: waiters) phase = (f.tell i phase).notify waiters phase := rfl

@[simp] theorem futures_tell :
    (f.tell i phase).futures[j]? =
      f.futures[j]?.map fun u => if i = j then u.told phase else u := by
  unfold tell
  split
  next waits =>
    rw [futures_setPhase]
    obtain ⟨u, found, waiting⟩ := Option.map_eq_some_iff.mp waits
    by_cases same : i = j
    · subst same
      simp [found, Future.told_of_waiting phase waiting]
    · simp [same]
  next busy =>
    by_cases same : i = j
    · subst same
      cases found : f.futures[i]? with
      | none => rfl
      | some u =>
        have other : u.phase ≠ .waiting := fun h => busy (by rw [found, Option.map_some, h])
        simp [Future.told_of_ne phase other]
    · simp [same]

@[simp] theorem length_tell : (f.tell i phase).futures.length = f.futures.length := by
  unfold tell
  split <;> simp

@[simp] theorem table_tell : (f.tell i phase).table = f.table := by
  unfold tell
  split <;> rfl

@[simp] theorem loads_tell : (f.tell i phase).loads = f.loads := by
  unfold tell
  split <;> rfl

@[simp] theorem Future.told_told : (u.told phase).told phase = u.told phase := by
  cases h : u.phase <;> simp [told, h]
  cases phase <;> rfl

@[simp] theorem futures_notify (waiters : List Nat) :
    (f.notify waiters phase).futures[j]? =
      f.futures[j]?.map fun u => if j ∈ waiters then u.told phase else u := by
  induction waiters generalizing f with
  | nil => simp [notify]
  | cons i waiters ih =>
    rw [notify_cons, ih, futures_tell, Option.map_map]
    congr 1
    funext u
    by_cases same : i = j
    · simp [same]
    · simp [same, Ne.symm same]

@[simp] theorem length_notify (waiters : List Nat) :
    (f.notify waiters phase).futures.length = f.futures.length := by
  induction waiters generalizing f with
  | nil => rfl
  | cons i waiters ih => rw [notify_cons, ih, length_tell]

@[simp] theorem table_notify (waiters : List Nat) :
    (f.notify waiters phase).table = f.table := by
  induction waiters generalizing f with
  | nil => rfl
  | cons i waiters ih => rw [notify_cons, ih, table_tell]

@[simp] theorem loads_notify (waiters : List Nat) :
    (f.notify waiters phase).loads = f.loads := by
  induction waiters generalizing f with
  | nil => rfl
  | cons i waiters ih => rw [notify_cons, ih, loads_tell]

end Phases

/-- A future for a key has come to a phase. -/
def At (f : Flight Key Value) (i : Nat) (key : Key) (phase : Phase Value) : Prop :=
  ∃ u, f.futures[i]? = some u ∧ u.key = key ∧ u.phase = phase

section At

variable {f : Flight Key Value} {i j : Nat} {key k : Key} {phase p : Phase Value}
  {u : Future Key Value}

theorem at_of_found (found : f.futures[i]? = some u) : f.At i u.key u.phase :=
  ⟨u, found, rfl, rfl⟩

theorem At.unique (h : f.At i key phase) (other : f.At i k p) : k = key ∧ p = phase := by
  obtain ⟨u, found, rfl, rfl⟩ := h
  obtain ⟨v, again, rfl, rfl⟩ := other
  rw [found, Option.some.injEq] at again
  exact ⟨by rw [again], by rw [again]⟩

theorem At.lt_length (h : f.At i key phase) : i < f.futures.length := by
  obtain ⟨u, found, _⟩ := h
  exact (List.getElem?_eq_some_iff.mp found).1

theorem at_setPhase (found : f.At i key phase) (own : Phase Value) :
    (f.setPhase i own).At j k p ↔ if j = i then k = key ∧ p = own else f.At j k p := by
  split
  next same =>
    subst same
    obtain ⟨u, found, rfl, rfl⟩ := found
    simp [At, found, eq_comm]
  next other => simp [At, Ne.symm other]

end At

def lead (f : Flight Key Value) (i : Nat) (key : Key) : Flight Key Value :=
  { f with table := f.table ++ [(key, [])], loads := f.loads ++ [i] }.setPhase i .leading

section Lead

variable (f : Flight Key Value) (i j : Nat) (key : Key)

@[simp] theorem length_lead : (f.lead i key).futures.length = f.futures.length :=
  length_setPhase ..

theorem at_lead {f : Flight Key Value} {i j : Nat} {key k : Key} {phase p : Phase Value}
    (found : f.At i key phase) (leads : Key) :
    (f.lead i leads).At j k p ↔ if j = i then k = key ∧ p = .leading else f.At j k p :=
  at_setPhase (f := { f with table := _, loads := _ }) found .leading

@[simp] theorem loads_lead : (f.lead i key).loads = f.loads ++ [i] := rfl

@[simp] theorem keys_lead : (f.lead i key).keys = f.keys ++ [key] := by
  simp [lead, keys]

end Lead

variable [DecidableEq Key] {f : Flight Key Value} {key k : Key}

theorem isInFlight_iff : f.isInFlight key = true ↔ key ∈ f.keys := by
  rw [isInFlight, entry?, List.lookup_isSome_iff, keys, List.mem_map]
  constructor
  · rintro ⟨entry, member, same⟩
    exact ⟨entry, member, (eq_of_beq same).symm⟩
  · rintro ⟨entry, member, rfl⟩
    exact ⟨entry, member, beq_self_eq_true _⟩

theorem mem_keys_iff : key ∈ f.keys ↔ ∃ waiters, f.entry? key = some waiters := by
  rw [← isInFlight_iff, isInFlight, Option.isSome_iff_exists]

theorem lookup_eq_none_iff : f.entry? key = none ↔ key ∉ f.keys := by
  rw [mem_keys_iff, Option.eq_none_iff_forall_ne_some, not_exists]

theorem lookup_congr {f g : Flight Key Value} (h : f.table = g.table) :
    f.entry? key = g.entry? key := by
  unfold entry?
  rw [h]

@[simp] theorem lookup_removeEntry :
    entry? (f.removeEntry key) k = if k = key then none else f.entry? k := by
  simp only [removeEntry, entry?]
  induction f.table with
  | nil => simp
  | cons entry table ih => grind

@[simp] theorem lookup_register (i : Nat) :
    entry? (f.register key i) k =
      (f.entry? k).map fun waiters => if k = key then waiters ++ [i] else waiters := by
  simp only [register, entry?]
  induction f.table with
  | nil => rfl
  | cons entry table ih => grind

@[simp] theorem keys_removeEntry : (f.removeEntry key).keys = f.keys.filter (· ≠ key) := by
  simp [keys, removeEntry, List.filter_map, Function.comp_def]

@[simp] theorem keys_register (i : Nat) : (f.register key i).keys = f.keys := by
  simp [keys, register, Function.comp_def]

def join (f : Flight Key Value) (i : Nat) (key : Key) : Flight Key Value :=
  (f.register key i).setPhase i .waiting

/-- The leader of a key ends: it tells the waiters, and is left in a phase of its own. -/
def retire (f : Flight Key Value) (i : Nat) (key : Key) (told own : Phase Value) :
    Flight Key Value :=
  (f.closeEntry key told).setPhase i own

variable (f) (i j : Nat)

theorem lookup_lead (free : key ∉ f.keys) :
    entry? (f.lead i key) k = if k = key then some [] else f.entry? k := by
  have none : f.entry? key = none := lookup_eq_none_iff.mpr free
  simp only [lead, entry?, table_setPhase, List.lookup_append] at none ⊢
  by_cases same : k = key
  · simp [same, none]
  · have other : (k == key) = false := beq_false_of_ne same
    simp [List.lookup_cons, same, other]

@[simp] theorem length_join : (f.join i key).futures.length = f.futures.length :=
  length_setPhase ..

theorem at_join {f : Flight Key Value} {i j : Nat} {phase p : Phase Value}
    (found : f.At i key phase) :
    (f.join i key).At j k p ↔ if j = i then k = key ∧ p = .waiting else f.At j k p :=
  at_setPhase (f := f.register _ _) found .waiting

@[simp] theorem loads_join : (f.join i key).loads = f.loads := rfl

@[simp] theorem keys_join : (f.join i key).keys = f.keys := keys_register i

@[simp] theorem lookup_join :
    entry? (f.join i key) k =
      (f.entry? k).map fun waiters => if k = key then waiters ++ [i] else waiters :=
  lookup_register i

variable (told own : Phase Value)

@[simp] theorem futures_retire :
    (f.retire i key told own).futures[j]? =
      f.futures[j]?.map fun u =>
        if i = j then { u with phase := own }
        else if j ∈ (f.entry? key).getD [] then u.told told else u := by
  rw [retire, futures_setPhase, closeEntry, futures_notify, Option.map_map]
  congr 1
  funext u
  by_cases same : i = j
  · simp only [Function.comp_apply, same, if_true]
    split <;> simp
  · simp [same]

@[simp] theorem length_retire :
    (f.retire i key told own).futures.length = f.futures.length := by
  rw [retire, length_setPhase, closeEntry, length_notify]
  rfl

theorem at_retire {f : Flight Key Value} {i j : Nat} {phase p : Phase Value}
    (found : f.At i key phase) (told own : Phase Value) :
    (f.retire i key told own).At j k p ↔
      if j = i then k = key ∧ p = own
      else if j ∈ (f.entry? key).getD [] then
        f.At j k p ∧ p ≠ .waiting ∨ f.At j k .waiting ∧ p = told
      else f.At j k p := by
  split
  next same =>
    subst same
    obtain ⟨u, found, rfl, rfl⟩ := found
    simp [At, found, eq_comm]
  split
  next other member =>
    simp only [At, futures_retire, if_neg (Ne.symm other), if_pos member, Option.map_eq_some_iff]
    constructor
    · rintro ⟨v, ⟨u, found, rfl⟩, rfl, rfl⟩
      by_cases waits : u.phase = .waiting
      · exact .inr ⟨⟨u, found, by simp, waits⟩, by rw [Future.told_of_waiting told waits]⟩
      · rw [Future.told_of_ne told waits]
        exact .inl ⟨⟨u, found, rfl, rfl⟩, waits⟩
    · rintro (⟨⟨u, found, rfl, rfl⟩, busy⟩ | ⟨⟨u, found, rfl, waits⟩, rfl⟩)
      · exact ⟨u, ⟨u, found, Future.told_of_ne told busy⟩, rfl, rfl⟩
      · exact ⟨_, ⟨u, found, Future.told_of_waiting p waits⟩, rfl, rfl⟩
  next other out => simp [At, Ne.symm other, out]

@[simp] theorem loads_retire : (f.retire i key told own).loads = f.loads := by
  simp [retire, closeEntry, removeEntry]

theorem table_retire : (f.retire i key told own).table = (f.removeEntry key).table := by
  simp [retire, closeEntry]

@[simp] theorem keys_retire : (f.retire i key told own).keys = f.keys.filter (· ≠ key) := by
  rw [← keys_removeEntry, keys, table_retire, keys]

@[simp] theorem lookup_retire :
    entry? (f.retire i key told own) k = if k = key then none else f.entry? k := by
  rw [lookup_congr (table_retire f i told own), lookup_removeEntry]

variable {f i j}

omit [DecidableEq Key] in
@[simp] theorem futures_start (key : Key) (outcome : Option Value) :
    (f.start key outcome).futures = f.futures ++ [⟨key, .fresh, outcome⟩] := rfl

omit [DecidableEq Key] in
theorem at_start {p : Phase Value} (outcome : Option Value) :
    (f.start key outcome).At j k p ↔ f.At j k p ∨ j = f.futures.length ∧ k = key ∧ p = .fresh := by
  simp only [At, futures_start, List.getElem?_append]
  split
  next below => simp [Nat.ne_of_lt below]
  next above =>
    have absent : f.futures[j]? = none := List.getElem?_eq_none (Nat.le_of_not_lt above)
    rw [List.getElem?_singleton]
    split
    next first =>
      have last : j = f.futures.length := by omega
      simp [last, eq_comm]
    next later =>
      have beyond : j ≠ f.futures.length := by omega
      simp [absent, beyond]

def settleLoad (f : Flight Key Value) (i : Nat) (value : Value) : Flight Key Value :=
  { f with futures := f.futures.modify i fun u => { u with outcome := some value } }

omit [DecidableEq Key] in
@[simp] theorem futures_settleLoad (value : Value) :
    (f.settleLoad i value).futures[j]? =
      f.futures[j]?.map fun u => if i = j then { u with outcome := some value } else u := by
  simp [settleLoad, List.getElem?_modify]

omit [DecidableEq Key] in
@[simp] theorem at_settleLoad {value : Value} {p : Phase Value} :
    (f.settleLoad i value).At j k p ↔ f.At j k p := by
  simp only [At, futures_settleLoad, Option.map_eq_some_iff]
  constructor
  · rintro ⟨_, ⟨u, found, rfl⟩, rfl, rfl⟩
    exact ⟨u, found, by split <;> rfl, by split <;> rfl⟩
  · rintro ⟨u, found, rfl, rfl⟩
    exact ⟨_, ⟨u, found, rfl⟩, by split <;> rfl, by split <;> rfl⟩

/-- A future in this phase turns to the table when it is polled. -/
def Phase.Contends (phase : Phase Value) : Prop := phase = .fresh ∨ phase = .cancelled

/-- What an action returns, and the flight that it leaves. -/
def act (f : Flight Key Value) : Action Key Value → Option Value × Flight Key Value
  | .start key outcome => (none, f.start key outcome)
  | .poll id => f.poll id
  | .release id value => (none, (f.release id value).2)
  | .drop id => (none, f.drop id)

/-- All that an action can do. -/
inductive Step (f : Flight Key Value) :
    Action Key Value → Option Value → Flight Key Value → Prop where
  | rest (action : Action Key Value) : Step f action none f
  | start (key : Key) (outcome : Option Value) :
      Step f (.start key outcome) none (f.start key outcome)
  | release {i : Nat} {u : Future Key Value} (value : Value) (found : f.futures[i]? = some u)
      (live : u.phase.isLive) (unset : u.outcome = none) :
      Step f (.release i value) none (f.settleLoad i value)
  /-- Another future leads the load of the key. -/
  | join {i : Nat} {u : Future Key Value} (found : f.futures[i]? = some u)
      (contends : u.phase.Contends) (busy : u.key ∈ f.keys) :
      Step f (.poll i) none (f.join i u.key)
  | lead {i : Nat} {u : Future Key Value} (found : f.futures[i]? = some u)
      (contends : u.phase.Contends) (free : u.key ∉ f.keys) (pending : u.outcome = none) :
      Step f (.poll i) none (f.lead i u.key)
  /-- The load begins and ends while its future is polled once. -/
  | pass {i : Nat} {u : Future Key Value} {value : Value} (found : f.futures[i]? = some u)
      (contends : u.phase.Contends) (free : u.key ∉ f.keys) (ready : u.outcome = some value) :
      Step f (.poll i) (some value)
        ((f.lead i u.key).retire i u.key (.sent value) (.done value))
  | finish {i : Nat} {u : Future Key Value} {value : Value} (found : f.futures[i]? = some u)
      (leading : u.phase = .leading) (ready : u.outcome = some value) :
      Step f (.poll i) (some value) (f.retire i u.key (.sent value) (.done value))
  | receive {i : Nat} {u : Future Key Value} {value : Value} (found : f.futures[i]? = some u)
      (sent : u.phase = .sent value) :
      Step f (.poll i) (some value) (f.setPhase i (.done value))
  /-- A leader is dropped. -/
  | abandon {i : Nat} {u : Future Key Value} (found : f.futures[i]? = some u)
      (leading : u.phase = .leading) :
      Step f (.drop i) none (f.retire i u.key .cancelled .dropped)
  /-- A future that neither leads a load nor has completed is dropped. -/
  | leave {i : Nat} {u : Future Key Value} (found : f.futures[i]? = some u)
      (idle : u.phase ≠ .leading) (undone : ∀ value, u.phase ≠ .done value) :
      Step f (.drop i) none (f.setPhase i .dropped)

theorem step_enter {u : Future Key Value} (found : f.futures[i]? = some u)
    (contends : u.phase.Contends) :
    Step f (.poll i) (f.enter i u).1 (f.enter i u).2 := by
  unfold enter
  split
  next busy => exact .join found contends (isInFlight_iff.mp busy)
  next free =>
    have free : u.key ∉ f.keys := fun member => free (isInFlight_iff.mpr member)
    rw [pollLeader]
    split
    next pending => exact .lead found contends free pending
    next value ready => exact .pass found contends free ready

theorem step_poll (i : Nat) : Step f (.poll i) (f.poll i).1 (f.poll i).2 := by
  unfold poll
  split
  next => exact .rest _
  next u found =>
    cases phase : u.phase with
    | fresh => exact step_enter found (.inl phase)
    | cancelled => exact step_enter found (.inr phase)
    | leading =>
      simp only [pollLeader]
      split
      next => exact .rest _
      next value ready => exact .finish found phase ready
    | waiting => exact .rest _
    | sent value => exact .receive found phase
    | done value => exact .rest _
    | dropped => exact .rest _

theorem step_release (i : Nat) (value : Value) :
    Step f (.release i value) none (f.release i value).2 := by
  unfold release
  split
  next key phase found =>
    split
    next live => exact .release value found live rfl
    next => exact .rest _
  next => exact .rest _

theorem step_drop (i : Nat) : Step f (.drop i) none (f.drop i) := by
  unfold drop
  split
  next => exact .rest _
  next u found =>
    split
    next => exact .rest _
    next phase => exact .abandon found phase
    next undone idle => exact .leave found idle undone

/-- Every action is one of the steps. -/
theorem step_act (f : Flight Key Value) (action : Action Key Value) :
    Step f action (f.act action).1 (f.act action).2 := by
  cases action with
  | start key outcome => exact .start key outcome
  | poll i => exact step_poll i
  | release i value => exact step_release i value
  | drop i => exact step_drop i

section Polls

-- What a poll does is decided by the phase of its future, by the table and by what the load of the future
-- can end with.

variable {u : Future Key Value} {value : Value}

theorem poll_join (found : f.futures[i]? = some u) (contends : u.phase.Contends)
    (busy : u.key ∈ f.keys) : f.poll i = (none, f.join i u.key) := by
  have inFlight : f.isInFlight u.key = true := isInFlight_iff.mpr busy
  rcases contends with phase | phase <;> simp [poll, found, phase, enter, inFlight, Flight.join]

theorem poll_enter (found : f.futures[i]? = some u) (contends : u.phase.Contends)
    (free : u.key ∉ f.keys) : f.poll i = (f.lead i u.key).pollLeader i u := by
  have idle : ¬f.isInFlight u.key = true := fun busy => free (isInFlight_iff.mp busy)
  rcases contends with phase | phase <;> simp [poll, found, phase, enter, idle, lead]

theorem poll_lead (found : f.futures[i]? = some u) (contends : u.phase.Contends)
    (free : u.key ∉ f.keys) (pending : u.outcome = none) :
    f.poll i = (none, f.lead i u.key) := by
  rw [poll_enter found contends free, pollLeader, pending]

theorem poll_pass (found : f.futures[i]? = some u) (contends : u.phase.Contends)
    (free : u.key ∉ f.keys) (ready : u.outcome = some value) :
    f.poll i = (some value, (f.lead i u.key).retire i u.key (.sent value) (.done value)) := by
  rw [poll_enter found contends free, pollLeader, ready]
  rfl

theorem poll_finish (found : f.futures[i]? = some u) (leading : u.phase = .leading)
    (ready : u.outcome = some value) :
    f.poll i = (some value, f.retire i u.key (.sent value) (.done value)) := by
  simp [poll, found, leading, pollLeader, ready, Flight.retire]

theorem poll_receive (found : f.futures[i]? = some u) (sent : u.phase = .sent value) :
    f.poll i = (some value, f.setPhase i (.done value)) := by
  simp [poll, found, sent]

end Polls

/-- The flight after a list of actions. -/
def after (f : Flight Key Value) (actions : List (Action Key Value)) : Flight Key Value :=
  actions.foldl (fun f action => (f.act action).2) f

@[simp] theorem after_nil (f : Flight Key Value) : f.after [] = f := rfl

theorem after_append (f : Flight Key Value) (first second : List (Action Key Value)) :
    f.after (first ++ second) = (f.after first).after second :=
  List.foldl_append

end Isolate.Flight
