import Isolate.Proofs.Flight.Run
import Mathlib.Data.Set.Card

/-!
# The table of loads

Whatever is done with the futures, a key stands in the table while one future executes the load of it,
and no longer. A future executes its load from the moment at which the load is started until the
future completes or is dropped.
-/

namespace Isolate.Flight

variable {Key Value : Type} [DecidableEq Key]

/-- A future executes the load of a key: the load was started, and the future has neither completed
nor been dropped. -/
def Executes (f : Flight Key Value) (i : Nat) (key : Key) : Prop :=
  i ∈ f.loads ∧ ∃ phase, f.At i key phase ∧ phase.isLive

/-- A future in this phase has started its load, or can start none any more. -/
def Phase.IsPast : Phase Value → Prop
  | .leading => True
  | .done _ => True
  | .dropped => True
  | _ => False

/-- What ties the table to the futures. -/
structure Sound (f : Flight Key Value) : Prop where
  nodup : f.keys.Nodup
  leader (key : Key) : key ∈ f.keys → ∃ i, f.At i key .leading
  loading (i : Nat) (key : Key) : f.At i key .leading → key ∈ f.keys
  one_leader (i j : Nat) (key : Key) : f.At i key .leading → f.At j key .leading → i = j
  /-- Who is registered for a key waits for it, or was dropped while it waited. -/
  registered (key : Key) (waiters : List Nat) : f.entry? key = some waiters →
    ∀ i ∈ waiters, f.At i key .waiting ∨ f.At i key .dropped
  waiting (i : Nat) (key : Key) : f.At i key .waiting →
    ∃ waiters, f.entry? key = some waiters ∧ i ∈ waiters
  created : ∀ i ∈ f.loads, i < f.futures.length
  past (i : Nat) (key : Key) (phase : Phase Value) : i ∈ f.loads → f.At i key phase → phase.IsPast
  started (i : Nat) (key : Key) : f.At i key .leading → i ∈ f.loads

theorem sound_empty : Sound ({} : Flight Key Value) where
  nodup := List.nodup_nil
  leader := by simp [keys]
  loading := by simp [At]
  one_leader := by simp [At]
  registered := by
    unfold entry?
    simp
  waiting := by simp [At]
  created := by simp
  past := by simp
  started := by simp [At]

namespace Sound

variable {f : Flight Key Value} {i j : Nat} {key k : Key} {phase p : Phase Value}

/-- The waiters that a leader tells are all that wait for its key. -/
theorem at_retire (h : Sound f) (leads : f.At i key .leading) (told own : Phase Value) :
    (f.retire i key told own).At j k p ↔
      if j = i then k = key ∧ p = own
      else f.At j k p ∧ ¬(k = key ∧ p = .waiting) ∨ f.At j k .waiting ∧ k = key ∧ p = told := by
  rw [Flight.at_retire leads]
  split
  next => rfl
  next other =>
    obtain ⟨waiters, entry⟩ := mem_keys_iff.mp (h.loading i key leads)
    rw [entry, Option.getD_some]
    split
    next member =>
      have same {q : Phase Value} (there : f.At j k q) : k = key := by
        rcases h.registered key waiters entry j member with waits | dropped
        · exact (waits.unique there).1
        · exact (dropped.unique there).1
      constructor
      · rintro (⟨there, busy⟩ | ⟨waits, rfl⟩)
        · exact .inl ⟨there, fun both => busy both.2⟩
        · exact .inr ⟨waits, same waits, rfl⟩
      · rintro (⟨there, other⟩ | ⟨waits, _, rfl⟩)
        · exact .inl ⟨there, fun waits => other ⟨same there, waits⟩⟩
        · exact .inr ⟨waits, rfl⟩
    next out =>
      have idle : ¬f.At j key .waiting := by
        intro waits
        obtain ⟨others, present, member⟩ := h.waiting j key waits
        rw [entry, Option.some.injEq] at present
        exact out (present ▸ member)
      constructor
      · intro there
        refine .inl ⟨there, ?_⟩
        rintro ⟨rfl, rfl⟩
        exact idle there
      · rintro (⟨there, _⟩ | ⟨waits, rfl, _⟩)
        · exact there
        · exact absurd waits idle

theorem lead (h : Sound f) (found : f.At i key phase) (contends : phase.Contends)
    (free : key ∉ f.keys) : Sound (f.lead i key) := by
  have move (j : Nat) (k : Key) (p : Phase Value) := at_lead (j := j) (k := k) (p := p) found key
  have leads : (f.lead i key).At i key .leading := (move ..).mpr (by simp)
  -- The mover was neither leading nor waiting nor dropped before.
  have keeps {j : Nat} {k : Key} {p : Phase Value} (there : f.At j k p) (calm : ¬p.Contends) :
      (f.lead i key).At j k p := by
    rw [move, if_neg]
    · exact there
    · rintro rfl
      obtain ⟨_, rfl⟩ := found.unique there
      exact calm contends
  constructor
  case nodup =>
    rw [keys_lead, List.nodup_append]
    refine ⟨h.nodup, List.nodup_singleton key, fun k member other same => ?_⟩
    rintro rfl
    rw [List.mem_singleton] at same
    exact free (same ▸ member)
  case leader =>
    intro k member
    rw [keys_lead, List.mem_append, List.mem_singleton] at member
    rcases member with old | rfl
    · obtain ⟨j, there⟩ := h.leader k old
      exact ⟨j, keeps there (by simp [Phase.Contends])⟩
    · exact ⟨i, leads⟩
  case loading =>
    intro j k there
    rw [keys_lead, List.mem_append, List.mem_singleton]
    rw [move] at there
    split at there
    · exact .inr there.1
    · exact .inl (h.loading j k there)
  case one_leader =>
    intro j l k one other
    rw [move] at one other
    split at one <;> split at other
    next first second => rw [first, second]
    next => exact absurd (one.1 ▸ h.loading l k other) free
    next => exact absurd (other.1 ▸ h.loading j k one) free
    next => exact h.one_leader j l k one other
  case registered =>
    intro k waiters entry j member
    rw [lookup_lead f i free] at entry
    split at entry
    · cases entry
      contradiction
    · rcases h.registered k waiters entry j member with waits | dropped
      · exact .inl (keeps waits (by simp [Phase.Contends]))
      · exact .inr (keeps dropped (by simp [Phase.Contends]))
  case waiting =>
    intro j k waits
    rw [move] at waits
    split at waits
    · exact absurd waits.2 (by simp)
    · obtain ⟨waiters, entry, member⟩ := h.waiting j k waits
      have apart : k ≠ key := by
        rintro rfl
        exact free (mem_keys_iff.mpr ⟨waiters, entry⟩)
      exact ⟨waiters, by rw [lookup_lead f i free, if_neg apart, entry], member⟩
  case created =>
    intro j started
    rw [loads_lead, List.mem_append, List.mem_singleton] at started
    rw [length_lead]
    rcases started with old | rfl
    · exact h.created j old
    · exact found.lt_length
  case past =>
    intro j k p started there
    rw [loads_lead, List.mem_append, List.mem_singleton] at started
    rw [move] at there
    split at there
    next =>
      rw [there.2]
      trivial
    next apart =>
      rcases started with old | same
      · exact h.past j k p old there
      · exact absurd same apart
  case started =>
    intro j k there
    rw [loads_lead, List.mem_append, List.mem_singleton]
    rw [move] at there
    split at there
    next same => exact .inr same
    next => exact .inl (h.started j k there)

theorem join (h : Sound f) (found : f.At i key phase) (contends : phase.Contends)
    (busy : key ∈ f.keys) : Sound (f.join i key) := by
  have move (j : Nat) (k : Key) (p : Phase Value) := at_join (j := j) (k := k) (p := p) found
  have waits : (f.join i key).At i key .waiting := (move ..).mpr (by simp)
  have keeps {j : Nat} {k : Key} {p : Phase Value} (there : f.At j k p) (calm : ¬p.Contends) :
      (f.join i key).At j k p := by
    rw [move, if_neg]
    · exact there
    · rintro rfl
      obtain ⟨_, rfl⟩ := found.unique there
      exact calm contends
  -- Joining makes nobody a leader.
  have leads {j : Nat} {k : Key} (there : (f.join i key).At j k .leading) : f.At j k .leading := by
    rw [move] at there
    split at there
    · exact absurd there.2 (by simp)
    · exact there
  constructor
  case nodup =>
    rw [keys_join]
    exact h.nodup
  case leader =>
    intro k member
    rw [keys_join] at member
    obtain ⟨j, there⟩ := h.leader k member
    exact ⟨j, keeps there (by simp [Phase.Contends])⟩
  case loading =>
    intro j k there
    rw [keys_join]
    exact h.loading j k (leads there)
  case one_leader =>
    intro j l k one other
    exact h.one_leader j l k (leads one) (leads other)
  case registered =>
    intro k waiters entry j member
    rw [lookup_join, Option.map_eq_some_iff] at entry
    obtain ⟨old, entry, rfl⟩ := entry
    have before (member : j ∈ old) : (f.join i key).At j k .waiting ∨
        (f.join i key).At j k .dropped := by
      rcases h.registered k old entry j member with waits | dropped
      · exact .inl (keeps waits (by simp [Phase.Contends]))
      · exact .inr (keeps dropped (by simp [Phase.Contends]))
    split at member
    next same =>
      rw [List.mem_append, List.mem_singleton] at member
      rcases member with member | rfl
      · exact before member
      · exact .inl (same ▸ waits)
    next => exact before member
  case waiting =>
    intro j k there
    rw [move] at there
    split at there
    next same =>
      obtain ⟨waiters, entry⟩ := mem_keys_iff.mp busy
      obtain ⟨rfl, _⟩ := there
      exact ⟨waiters ++ [i], by simp [entry], by simp [same]⟩
    next =>
      obtain ⟨waiters, entry, member⟩ := h.waiting j k there
      refine ⟨_, by rw [lookup_join, entry, Option.map_some], ?_⟩
      split
      · exact List.mem_append_left _ member
      · exact member
  case created =>
    rw [loads_join, length_join]
    exact h.created
  case past =>
    intro j k p started there
    rw [move] at there
    split at there
    next same =>
      -- A future that contends has started no load.
      have past := h.past i key phase (same ▸ started) found
      rcases contends with rfl | rfl <;> contradiction
    next => exact h.past j k p started there
  case started =>
    intro j k there
    exact h.started j k (leads there)

theorem retire (h : Sound f) (leads : f.At i key .leading) {told own : Phase Value}
    (isTold : told = .cancelled ∨ ∃ value, told = .sent value)
    (isOver : own = .dropped ∨ ∃ value, own = .done value) :
    Sound (f.retire i key told own) := by
  have move (j : Nat) (k : Key) (p : Phase Value) :=
    h.at_retire (j := j) (k := k) (p := p) leads told own
  have heard : told ≠ .leading ∧ told ≠ .waiting := by
    rcases isTold with rfl | ⟨value, rfl⟩ <;> simp
  have left : own ≠ .leading ∧ own ≠ .waiting ∧ own.IsPast := by
    rcases isOver with rfl | ⟨value, rfl⟩ <;> simp [Phase.IsPast]
  -- Retiring makes nobody lead or wait, and all that waited for the key are told.
  have leading {j : Nat} {k : Key} (there : (f.retire i key told own).At j k .leading) :
      j ≠ i ∧ f.At j k .leading := by
    rw [move] at there
    split at there
    next => exact absurd there.2.symm left.1
    next apart =>
      rcases there with ⟨old, _⟩ | ⟨_, _, same⟩
      · exact ⟨apart, old⟩
      · exact absurd same.symm heard.1
  have keeps {j : Nat} {k : Key} {p : Phase Value} (there : f.At j k p) (apart : j ≠ i)
      (other : ¬(k = key ∧ p = .waiting)) : (f.retire i key told own).At j k p := by
    rw [move, if_neg apart]
    exact .inl ⟨there, other⟩
  constructor
  case nodup =>
    rw [keys_retire]
    exact h.nodup.filter _
  case leader =>
    intro k member
    rw [keys_retire, List.mem_filter] at member
    obtain ⟨j, there⟩ := h.leader k member.1
    have apart : j ≠ i := by
      rintro rfl
      exact absurd (leads.unique there).1 (by simpa using member.2)
    exact ⟨j, keeps there apart (by simp)⟩
  case loading =>
    intro j k there
    obtain ⟨apart, old⟩ := leading there
    rw [keys_retire, List.mem_filter]
    refine ⟨h.loading j k old, ?_⟩
    have other : k ≠ key := by
      rintro rfl
      exact apart (h.one_leader j i k old leads)
    simpa using other
  case one_leader =>
    intro j l k one other
    exact h.one_leader j l k (leading one).2 (leading other).2
  case registered =>
    intro k waiters entry j member
    rw [lookup_retire] at entry
    split at entry
    next => contradiction
    next other =>
      rcases h.registered k waiters entry j member with waits | dropped
      · have apart : j ≠ i := by
          rintro rfl
          exact other (leads.unique waits).1
        exact .inl (keeps waits apart fun same => other same.1)
      · have apart : j ≠ i := by
          rintro rfl
          exact other (leads.unique dropped).1
        exact .inr (keeps dropped apart (by simp))
  case waiting =>
    intro j k there
    rw [move] at there
    split at there
    next => exact absurd there.2.symm left.2.1
    next =>
      rcases there with ⟨waits, other⟩ | ⟨_, _, same⟩
      · obtain ⟨waiters, entry, member⟩ := h.waiting j k waits
        have apart : k ≠ key := fun same => other ⟨same, rfl⟩
        exact ⟨waiters, by rw [lookup_retire, if_neg apart, entry], member⟩
      · exact absurd same.symm heard.2
  case created =>
    rw [loads_retire, length_retire]
    exact h.created
  case past =>
    intro j k p started there
    rw [loads_retire] at started
    rw [move] at there
    split at there
    next =>
      rw [there.2]
      exact left.2.2
    next =>
      rcases there with ⟨old, _⟩ | ⟨waits, _⟩
      · exact h.past j k p started old
      · exact (h.past j k _ started waits).elim
  case started =>
    intro j k there
    rw [loads_retire]
    exact h.started j k (leading there).2

/-- A future that leads no load completes with what it was sent, or is dropped. -/
theorem settle (h : Sound f) (found : f.At i key phase) (idle : phase ≠ .leading) {own : Phase Value}
    (isOver : own = .dropped ∨ ∃ value, phase = .sent value ∧ own = .done value) :
    Sound (f.setPhase i own) := by
  have move (j : Nat) (k : Key) (p : Phase Value) :=
    at_setPhase (j := j) (k := k) (p := p) found own
  have entry (k : Key) : entry? (f.setPhase i own) k = f.entry? k :=
    lookup_congr (table_setPhase f i own)
  have left : own ≠ .leading ∧ own ≠ .waiting ∧ own.IsPast := by
    rcases isOver with rfl | ⟨value, _, rfl⟩ <;> simp [Phase.IsPast]
  have leading {j : Nat} {k : Key} (there : (f.setPhase i own).At j k .leading) :
      f.At j k .leading := by
    rw [move] at there
    split at there
    · exact absurd there.2.symm left.1
    · exact there
  constructor
  case nodup => exact h.nodup
  case leader =>
    intro k member
    obtain ⟨j, there⟩ := h.leader k member
    have apart : j ≠ i := by
      rintro rfl
      exact idle (there.unique found).2
    exact ⟨j, (move ..).mpr (by rwa [if_neg apart])⟩
  case loading =>
    intro j k there
    exact h.loading j k (leading there)
  case one_leader =>
    intro j l k one other
    exact h.one_leader j l k (leading one) (leading other)
  case registered =>
    intro k waiters present j member
    rw [entry] at present
    have old := h.registered k waiters present j member
    simp only [move]
    split
    next same =>
      -- The mover waited or was dropped, so that it was sent nothing.
      subst same
      rcases isOver with rfl | ⟨value, rfl, _⟩
      · rcases old with waits | dropped
        · exact .inr ⟨(found.unique waits).1, rfl⟩
        · exact .inr ⟨(found.unique dropped).1, rfl⟩
      · rcases old with waits | dropped
        · exact absurd (found.unique waits).2 (by simp)
        · exact absurd (found.unique dropped).2 (by simp)
    next => exact old
  case waiting =>
    intro j k there
    rw [move] at there
    rw [entry]
    split at there
    · exact absurd there.2.symm left.2.1
    · exact h.waiting j k there
  case created =>
    rw [loads_setPhase, length_setPhase]
    exact h.created
  case past =>
    intro j k p started there
    rw [loads_setPhase] at started
    rw [move] at there
    split at there
    · rw [there.2]
      exact left.2.2
    · exact h.past j k p started there
  case started =>
    intro j k there
    rw [loads_setPhase]
    exact h.started j k (leading there)

theorem start (h : Sound f) (key : Key) (outcome : Option Value) : Sound (f.start key outcome) := by
  have move (j : Nat) (k : Key) (p : Phase Value) :
      (f.start key outcome).At j k p ↔ f.At j k p ∨ j = f.futures.length ∧ k = key ∧ p = .fresh :=
    at_start outcome
  obtain ⟨nodup, leader, loading, one_leader, registered, waiting, created, past, started⟩ := h
  constructor
  case nodup => exact nodup
  case leader =>
    intro k member
    obtain ⟨i, leads⟩ := leader k member
    exact ⟨i, (move ..).mpr (.inl leads)⟩
  case loading =>
    intro i k leads
    exact loading i k (by simpa [move] using leads)
  case one_leader => simpa [move] using one_leader
  case registered =>
    intro k waiters present i member
    simpa [move] using registered k waiters present i member
  case waiting =>
    intro i k waits
    exact waiting i k (by simpa [move] using waits)
  case created =>
    intro i member
    rw [futures_start, List.length_append]
    exact Nat.lt_add_right _ (created i member)
  case past =>
    intro i k p member came
    have := created i member
    exact past i k p member (by simpa [move, Nat.ne_of_lt this] using came)
  case started =>
    intro i k leads
    exact started i k (by simpa [move] using leads)

theorem settleLoad (h : Sound f) (i : Nat) (value : Value) : Sound (f.settleLoad i value) := by
  obtain ⟨nodup, leader, loading, one_leader, registered, waiting, created, past, started⟩ := h
  constructor
  case nodup => exact nodup
  case leader =>
    simp only [at_settleLoad]
    exact leader
  case loading =>
    simp only [at_settleLoad]
    exact loading
  case one_leader =>
    simp only [at_settleLoad]
    exact one_leader
  case registered =>
    simp only [at_settleLoad]
    exact registered
  case waiting =>
    simp only [at_settleLoad]
    exact waiting
  case created => simpa [Flight.settleLoad] using created
  case past =>
    simp only [at_settleLoad]
    exact past
  case started =>
    simp only [at_settleLoad]
    exact started

theorem step (h : Sound f) {action : Action Key Value} {result : Option Value}
    {g : Flight Key Value} (step : Step f action result g) : Sound g := by
  cases step with
  | rest => exact h
  | start key outcome => exact h.start key outcome
  | release value => exact h.settleLoad _ value
  | join found contends busy => exact h.join (at_of_found found) contends busy
  | lead found contends free => exact h.lead (at_of_found found) contends free
  | pass found contends free =>
    have begun := h.lead (at_of_found found) contends free
    exact begun.retire ((at_lead (at_of_found found) _).mpr (by simp)) (.inr ⟨_, rfl⟩)
      (.inr ⟨_, rfl⟩)
  | finish found leading =>
    exact h.retire (leading ▸ at_of_found found) (.inr ⟨_, rfl⟩) (.inr ⟨_, rfl⟩)
  | receive found sent => exact h.settle (sent ▸ at_of_found found) (by simp) (.inr ⟨_, rfl, rfl⟩)
  | abandon found leading =>
    exact h.retire (leading ▸ at_of_found found) (.inl rfl) (.inl rfl)
  | leave found idle => exact h.settle (at_of_found found) idle (.inl rfl)

theorem act (h : Sound f) (action : Action Key Value) : Sound (f.act action).2 :=
  h.step (step_act f action)

theorem after (h : Sound f) (actions : List (Action Key Value)) : Sound (f.after actions) := by
  induction actions generalizing f with
  | nil => exact h
  | cons action actions ih => exact ih (h.act action)

/-- The executing future of a key is its leader. -/
theorem executes_iff (h : Sound f) : f.Executes i key ↔ f.At i key .leading := by
  constructor
  · rintro ⟨started, phase, came, live⟩
    have past := h.past i key phase started came
    cases phase <;> first | exact came | contradiction
  · intro leads
    exact ⟨h.started i key leads, .leading, leads, rfl⟩

theorem executes_unique (h : Sound f) (one : f.Executes i key) (other : f.Executes j key) :
    i = j :=
  h.one_leader i j key (h.executes_iff.mp one) (h.executes_iff.mp other)

theorem mem_keys (h : Sound f) : key ∈ f.keys ↔ ∃ i, f.Executes i key := by
  constructor
  · intro member
    obtain ⟨i, leads⟩ := h.leader key member
    exact ⟨i, h.executes_iff.mpr leads⟩
  · rintro ⟨i, executes⟩
    exact h.loading i key (h.executes_iff.mp executes)

theorem size_eq_encard (h : Sound f) :
    (f.size : ℕ∞) = {key | ∃ i, f.Executes i key}.encard := by
  have same : {key | ∃ i, f.Executes i key} = (f.keys.toFinset : Set Key) := by
    ext key
    simp [h.mem_keys]
  rw [same, Set.encard_coe_eq_coe_finsetCard, List.toFinset_card_of_nodup h.nodup, keys,
    List.length_map, size]

end Sound

/-- After any run the keys in the table are those whose load one future executes, and no key is loaded
twice. Once every future has completed or been dropped, nothing is left in the table. -/
theorem table_exact (actions : List (Action Key Value)) :
    let f := after {} actions
    (∀ key i j, f.Executes i key → f.Executes j key → i = j) ∧
      (∀ key, f.isInFlight key = true ↔ ∃! i, f.Executes i key) ∧
      (f.size : ℕ∞) = {key | ∃ i, f.Executes i key}.encard ∧
      ((∀ i, f.isLive i = false) → f.table = []) := by
  intro f
  have sound : Sound f := sound_empty.after actions
  refine ⟨fun key i j one other => sound.executes_unique one other, fun key => ?_,
    sound.size_eq_encard, fun ended => ?_⟩
  · rw [isInFlight_iff, sound.mem_keys]
    constructor
    · rintro ⟨i, executes⟩
      exact ⟨i, executes, fun j other => sound.executes_unique other executes⟩
    · rintro ⟨i, executes, _⟩
      exact ⟨i, executes⟩
  · have none : f.keys = [] := by
      refine List.eq_nil_iff_forall_not_mem.mpr fun key member => ?_
      obtain ⟨i, _, phase, ⟨u, found, rfl, rfl⟩, live⟩ := sound.mem_keys.mp member
      have := ended i
      simp [isLive, found, live] at this
    simpa [keys] using none

end Isolate.Flight
