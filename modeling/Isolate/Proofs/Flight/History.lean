import Isolate.Proofs.Flight.Table

/-!
# Histories of futures

A run is seen action by action: the state before each action, the polls, the completions and the ends
of loads. What an action does to one future is a turn. A completed future stays so, and what a future
was sent or has begun goes back to an earlier action of the run.
-/

namespace Isolate.Flight

variable {Key Value : Type} [DecidableEq Key]

/-- A future is for a key. -/
def For (f : Flight Key Value) (i : Nat) (key : Key) : Prop := ∃ phase, f.At i key phase

/-- The load of a future can end with a value. -/
def Yields (f : Flight Key Value) (i : Nat) (value : Value) : Prop :=
  ∃ u, f.futures[i]? = some u ∧ u.outcome = some value

/-- What an action can do to one future for a key: its phase before the action and after it. -/
inductive Turn (f : Flight Key Value) (i : Nat) (key : Key) :
    Action Key Value → Option Value → Phase Value → Phase Value → Prop where
  | stay (action : Action Key Value) (result : Option Value) (phase : Phase Value) :
      Turn f i key action result phase phase
  | join {phase : Phase Value} (contends : phase.Contends) (busy : key ∈ f.keys) :
      Turn f i key (.poll i) none phase .waiting
  | lead {phase : Phase Value} (contends : phase.Contends) (free : key ∉ f.keys) :
      Turn f i key (.poll i) none phase .leading
  | pass {phase : Phase Value} {value : Value} (contends : phase.Contends) (free : key ∉ f.keys)
      (yields : f.Yields i value) : Turn f i key (.poll i) (some value) phase (.done value)
  | finish {value : Value} (yields : f.Yields i value) :
      Turn f i key (.poll i) (some value) .leading (.done value)
  | receive (value : Value) : Turn f i key (.poll i) (some value) (.sent value) (.done value)
  /-- The load of another future ends. -/
  | sent {j : Nat} {value : Value} (leads : f.At j key .leading) (yields : f.Yields j value) :
      Turn f i key (.poll j) (some value) .waiting (.sent value)
  /-- Another future is dropped while it leads. -/
  | cancelled {j : Nat} (leads : f.At j key .leading) :
      Turn f i key (.drop j) none .waiting .cancelled
  | dropped {phase : Phase Value} (undone : ∀ value, phase ≠ .done value) :
      Turn f i key (.drop i) none phase .dropped

variable {f g : Flight Key Value} {action : Action Key Value} {result : Option Value} {i : Nat}
  {key : Key} {phase : Phase Value}

/-- A future that an action leaves in a phase has come there by a turn, or the action created it. -/
theorem Sound.turn (h : Sound f) (step : Step f action result g) (came : g.At i key phase) :
    (∃ old, f.At i key old ∧ Turn f i key action result old phase) ∨
      ∃ outcome, action = .start key outcome ∧ i = f.futures.length ∧ phase = .fresh := by
  cases step with
  | rest => exact .inl ⟨phase, came, .stay ..⟩
  | start key outcome =>
    rcases (at_start outcome).mp came with old | ⟨last, rfl, rfl⟩
    · exact .inl ⟨phase, old, .stay ..⟩
    · exact .inr ⟨outcome, rfl, last, rfl⟩
  | release value => exact .inl ⟨phase, at_settleLoad.mp came, .stay ..⟩
  | @join j u found contends busy =>
    have mover := at_of_found found
    rw [at_join mover] at came
    split at came
    next same =>
      obtain ⟨rfl, rfl⟩ := came
      subst same
      exact .inl ⟨u.phase, mover, .join contends busy⟩
    next other => exact .inl ⟨phase, came, .stay ..⟩
  | @lead j u found contends free pending =>
    have mover := at_of_found found
    rw [at_lead mover] at came
    split at came
    next same =>
      obtain ⟨rfl, rfl⟩ := came
      subst same
      exact .inl ⟨u.phase, mover, .lead contends free⟩
    next other => exact .inl ⟨phase, came, .stay ..⟩
  | @pass j u value found contends free ready =>
    have mover := at_of_found found
    have begun := h.lead mover contends free
    have leads : (f.lead j u.key).At j u.key .leading := (at_lead mover _).mpr (by simp)
    rw [begun.at_retire leads] at came
    split at came
    next same =>
      obtain ⟨rfl, rfl⟩ := came
      subst same
      exact .inl ⟨u.phase, mover, .pass contends free ⟨u, found, ready⟩⟩
    next other =>
      simp only [at_lead mover, if_neg other] at came
      rcases came with ⟨old, _⟩ | ⟨waits, rfl, rfl⟩
      · exact .inl ⟨phase, old, .stay ..⟩
      · -- Nobody waits for a key that is not loading.
        obtain ⟨waiters, entry, _⟩ := h.waiting i _ waits
        exact absurd (mem_keys_iff.mpr ⟨waiters, entry⟩) free
  | @finish j u value found leading ready =>
    have leads : f.At j u.key .leading := leading ▸ at_of_found found
    rw [h.at_retire leads] at came
    split at came
    next same =>
      obtain ⟨rfl, rfl⟩ := came
      subst same
      exact .inl ⟨.leading, leads, .finish ⟨u, found, ready⟩⟩
    next other =>
      rcases came with ⟨old, _⟩ | ⟨waits, rfl, rfl⟩
      · exact .inl ⟨phase, old, .stay ..⟩
      · exact .inl ⟨.waiting, waits, .sent leads ⟨u, found, ready⟩⟩
  | @receive j u value found sent =>
    have mover := at_of_found found
    rw [at_setPhase mover] at came
    split at came
    next same =>
      obtain ⟨rfl, rfl⟩ := came
      subst same
      exact .inl ⟨.sent value, sent ▸ mover, .receive value⟩
    next other => exact .inl ⟨phase, came, .stay ..⟩
  | @abandon j u found leading =>
    have leads : f.At j u.key .leading := leading ▸ at_of_found found
    rw [h.at_retire leads] at came
    split at came
    next same =>
      obtain ⟨rfl, rfl⟩ := came
      subst same
      exact .inl ⟨.leading, leads, .dropped (by simp)⟩
    next other =>
      rcases came with ⟨old, _⟩ | ⟨waits, rfl, rfl⟩
      · exact .inl ⟨phase, old, .stay ..⟩
      · exact .inl ⟨.waiting, waits, .cancelled leads⟩
  | @leave j u found idle undone =>
    have mover := at_of_found found
    rw [at_setPhase mover] at came
    split at came
    next same =>
      obtain ⟨rfl, rfl⟩ := came
      subst same
      exact .inl ⟨u.phase, mover, .dropped undone⟩
    next other => exact .inl ⟨phase, came, .stay ..⟩

theorem Step.length_le (step : Step f action result g) : f.futures.length ≤ g.futures.length := by
  cases step <;> simp [settleLoad]

/-- A future that exists takes one turn in every action. -/
theorem Sound.forward (h : Sound f) (step : Step f action result g) (here : f.At i key phase) :
    ∃ new, g.At i key new ∧ Turn f i key action result phase new := by
  have created : i < g.futures.length := Nat.lt_of_lt_of_le here.lt_length step.length_le
  have came : g.At i g.futures[i].key g.futures[i].phase :=
    at_of_found (List.getElem?_eq_getElem created)
  rcases h.turn step came with ⟨old, before, turn⟩ | ⟨_, _, last, _⟩
  · obtain ⟨same, rfl⟩ := here.unique before
    exact ⟨_, same ▸ came, same ▸ turn⟩
  · exact absurd here.lt_length (by omega)

/-- A completed future stays completed. -/
theorem Sound.keeps_done {value : Value} (h : Sound f) (step : Step f action result g)
    (here : f.At i key (.done value)) : g.At i key (.done value) := by
  obtain ⟨new, came, turn⟩ := h.forward step here
  cases turn with
  | stay => exact came
  | join contends | lead contends | pass contends => rcases contends with h | h <;> contradiction
  | dropped undone => exact absurd rfl (undone value)

/-- A load is started only by polling its future while the key is free. -/
theorem Step.started (step : Step f action result g) (member : i ∈ g.loads) :
    i ∈ f.loads ∨
      ∃ key phase, action = .poll i ∧ f.At i key phase ∧ phase.Contends ∧ key ∉ f.keys := by
  cases step with
  | @lead j u found contends free =>
    rw [loads_lead, List.mem_append, List.mem_singleton] at member
    rcases member with old | rfl
    · exact .inl old
    · exact .inr ⟨u.key, u.phase, rfl, at_of_found found, contends, free⟩
  | @pass j u value found contends free =>
    rw [loads_retire, loads_lead, List.mem_append, List.mem_singleton] at member
    rcases member with old | rfl
    · exact .inl old
    · exact .inr ⟨u.key, u.phase, rfl, at_of_found found, contends, free⟩
  | _ => exact .inl (by simpa [settleLoad, Flight.start] using member)

theorem Step.keeps_loads (step : Step f action result g) (member : i ∈ f.loads) : i ∈ g.loads := by
  cases step <;> simp [settleLoad, Flight.start, member]

/-- What returns a value is a poll of a future that was sent it or whose load ends with it. -/
theorem Step.returned {value : Value} (h : Sound f) (step : Step f action (some value) g) :
    ∃ i key, action = .poll i ∧ g.At i key (.done value) ∧
      (f.At i key (.sent value) ∧ i ∉ g.loads ∨
        f.isLive i ∧ i ∈ g.loads ∧ f.Yields i value) := by
  cases step with
  | @pass i u _ found contends free ready =>
    have mover := at_of_found found
    have leads : (f.lead i u.key).At i u.key .leading := (at_lead mover _).mpr (by simp)
    refine ⟨i, u.key, rfl, (at_retire leads ..).mpr (by simp), .inr ⟨?_, by simp, u, found, ready⟩⟩
    rcases contends with phase | phase <;> simp [isLive, found, phase, Phase.isLive]
  | @finish i u _ found leading ready =>
    have leads : f.At i u.key .leading := leading ▸ at_of_found found
    refine ⟨i, u.key, rfl, (at_retire leads ..).mpr (by simp), .inr ⟨?_, ?_, u, found, ready⟩⟩
    · simp [isLive, found, leading, Phase.isLive]
    · simpa using h.started i u.key leads
  | @receive i u _ found sent =>
    have mover : f.At i u.key (.sent value) := sent ▸ at_of_found found
    refine ⟨i, u.key, rfl, (at_setPhase mover _).mpr (by simp), .inl ⟨mover, fun member => ?_⟩⟩
    exact h.past i u.key _ member mover

/-- A list of actions, beginning without futures. -/
abbrev Run (Key Value : Type) := List (Action Key Value)

namespace Run

variable {run : Run Key Value} {n m : Nat} {j : Nat} {value : Value}

/-- The flight before action number `n`. -/
def state (run : Run Key Value) (n : Nat) : Flight Key Value := after {} (run.take n)

/-- Action number `n` polls an existing future. -/
def Polled (run : Run Key Value) (i n : Nat) : Prop :=
  run[n]? = some (.poll i) ∧ i < (run.state n).futures.length

/-- Action number `n` is the first poll of a future. -/
def FirstPoll (run : Run Key Value) (i n : Nat) : Prop :=
  run.Polled i n ∧ ∀ m < n, ¬run.Polled i m

/-- Action number `n` polls a future, which completes with a value. -/
def Returns (run : Run Key Value) (i n : Nat) (value : Value) : Prop :=
  run[n]? = some (.poll i) ∧ ((run.state n).poll i).1 = some value

/-- The load of a future executes at a moment of action number `n`: the future was live when the
action began, and the load is started by the time the action is over. -/
def Executes (run : Run Key Value) (i n : Nat) : Prop :=
  (run.state n).isLive i ∧ i ∈ (run.state (n + 1)).loads

/-- The load of a future ends with a value in action number `n`: the future is polled while the load
executes, and the load can end with the value. -/
def Ends (run : Run Key Value) (i n : Nat) (value : Value) : Prop :=
  run[n]? = some (.poll i) ∧ run.Executes i n ∧ (run.state n).Yields i value

theorem state_succ (here : run[n]? = some action) :
    run.state (n + 1) = ((run.state n).act action).2 := by
  rw [state, state, List.take_add_one, here, after_append]
  rfl

theorem state_end (ended : run[n]? = none) : run.state (n + 1) = run.state n := by
  rw [state, state, List.take_add_one, ended, Option.toList_none, List.append_nil]

theorem sound (run : Run Key Value) (n : Nat) : Sound (run.state n) :=
  sound_empty.after _

theorem step (here : run[n]? = some action) :
    Step (run.state n) action ((run.state n).act action).1 (run.state (n + 1)) :=
  state_succ here ▸ step_act ..

/-- What the actions between two moments of a run keep holds at the second if it holds at the first. -/
theorem keeps_between {P : Flight Key Value → Prop}
    (step : ∀ k action, m ≤ k → k < n → run[k]? = some action → P (run.state k) →
      P (run.state (k + 1)))
    (now : P (run.state m)) (later : m ≤ n) : P (run.state n) := by
  induction n, later using Nat.le_induction with
  | base => exact now
  | succ n later ih =>
    have before := ih fun k action first last => step k action first (by omega)
    cases here : run[n]? with
    | none => rwa [state_end here]
    | some action => exact step n action later (by omega) here before

/-- What every step keeps holds from any moment of a run on. -/
theorem keeps {P : Flight Key Value → Prop}
    (step : ∀ {f g action result}, Sound f → Step f action result g → P f → P g)
    (now : P (run.state m)) (later : m ≤ n) : P (run.state n) :=
  keeps_between (fun k _ _ _ here => step (run.sound k) (Run.step here)) now later

theorem for_later (now : (run.state m).For i key) (later : m ≤ n) : (run.state n).For i key := by
  refine keeps (P := fun f => f.For i key) (fun sound step here => ?_) now later
  obtain ⟨phase, here⟩ := here
  obtain ⟨new, came, _⟩ := sound.forward step here
  exact ⟨new, came⟩

theorem done_later (now : (run.state m).At i key (.done value)) (later : m ≤ n) :
    (run.state n).At i key (.done value) :=
  keeps (P := fun f => f.At i key (.done value)) Sound.keeps_done now later

theorem loads_later (now : i ∈ (run.state m).loads) (later : m ≤ n) : i ∈ (run.state n).loads :=
  keeps (P := fun f => i ∈ f.loads) (fun _ step => step.keeps_loads) now later

/-- A future that is neither new nor dropped was polled at some earlier action. -/
theorem polled_of_at (came : (run.state n).At i key phase) (old : phase ≠ .fresh)
    (kept : phase ≠ .dropped) : ∃ m < n, run.Polled i m := by
  induction n generalizing phase with
  | zero => simp [state, At] at came
  | succ n ih =>
    cases here : run[n]? with
    | none =>
      obtain ⟨m, before, polled⟩ := ih (state_end here ▸ came) old kept
      exact ⟨m, by omega, polled⟩
    | some action =>
      rcases (run.sound n).turn (step here) came with ⟨_, before, turn⟩ | ⟨_, _, _, fresh⟩
      · have earlier {p : Phase Value} (past : (run.state n).At i key p) (h : p ≠ .fresh)
            (h' : p ≠ .dropped) : ∃ m < n + 1, run.Polled i m := by
          obtain ⟨m, before, polled⟩ := ih past h h'
          exact ⟨m, by omega, polled⟩
        have now (h : run[n]? = some (.poll i)) : ∃ m < n + 1, run.Polled i m :=
          ⟨n, by omega, h, before.lt_length⟩
        generalize ((run.state n).act action).1 = result at turn
        cases turn with
        | stay => exact earlier before old kept
        | join | lead | pass | finish | receive => exact now here
        | sent | cancelled => exact earlier before (by simp) (by simp)
        | dropped => exact absurd rfl kept
      · exact absurd fresh old

/-- What a future was sent is what a load for its key ended with, at an action at which the future
waited. -/
theorem ended_of_sent (came : (run.state n).At i key (.sent value)) :
    ∃ e < n, ∃ j, run.Ends j e value ∧ (run.state e).At j key .leading ∧
      (run.state e).At i key .waiting := by
  induction n with
  | zero => simp [state, At] at came
  | succ n ih =>
    cases here : run[n]? with
    | none =>
      obtain ⟨e, before, rest⟩ := ih (state_end here ▸ came)
      exact ⟨e, by omega, rest⟩
    | some action =>
      rcases (run.sound n).turn (step here) came with ⟨_, before, turn⟩ | ⟨_, _, _, fresh⟩
      · generalize ((run.state n).act action).1 = result at turn
        generalize hp : (Phase.sent value) = p at turn
        cases turn with
        | stay =>
          subst hp
          obtain ⟨e, before, rest⟩ := ih before
          exact ⟨e, by omega, rest⟩
        | @sent j value' leads yields =>
          cases hp
          have started := (run.sound n).started j key leads
          obtain ⟨u, found, rfl, leading⟩ := leads
          refine ⟨n, by omega, j, ⟨here, ⟨?_, loads_later started (by omega)⟩, yields⟩,
            ⟨u, found, rfl, leading⟩, before⟩
          simp [isLive, found, leading, Phase.isLive]
        | _ => contradiction
      · contradiction

theorem exists_firstPoll (polled : run.Polled i n) : ∃ m ≤ n, run.FirstPoll i m := by
  classical
  have some : ∃ m, run.Polled i m := ⟨n, polled⟩
  exact ⟨Nat.find some, Nat.find_min' some polled, Nat.find_spec some,
    fun m before => Nat.find_min some before⟩

end Run

end Isolate.Flight
