import Isolate.Proofs.Flight.History

/-!
# Agreement on the value of a load

A completed future has the value of a load for its own key that was still executing when the future
was first polled, or later. All that wait when a load ends have the value of that load and start none
themselves.
-/

namespace Isolate.Flight

variable {Key Value : Type} [DecidableEq Key]

/-- A future is among the waiters of a key in the table. -/
def Registered (f : Flight Key Value) (i : Nat) (key : Key) : Prop :=
  ∃ waiters, f.entry? key = some waiters ∧ i ∈ waiters

/-- A future was sent a value in place of that of a load of its own. -/
def Served (f : Flight Key Value) (i : Nat) (key : Key) (value : Value) : Prop :=
  i ∉ f.loads ∧ (f.At i key (.sent value) ∨ f.At i key (.done value) ∨ f.At i key .dropped)

variable {f g : Flight Key Value} {action : Action Key Value} {result : Option Value} {i : Nat}
  {key : Key} {value : Value}

omit [DecidableEq Key] in
theorem isLive_iff : f.isLive i ↔ ∃ key phase, f.At i key phase ∧ phase.isLive := by
  constructor
  · intro live
    cases found : f.futures[i]? with
    | none => simp [isLive, found] at live
    | some u => exact ⟨u.key, u.phase, at_of_found found, by simpa [isLive, found] using live⟩
  · rintro ⟨_, _, ⟨u, found, rfl, rfl⟩, live⟩
    simpa [isLive, found] using live

/-- A live waiter of a key waits for it. -/
theorem Sound.waiting_of_registered (h : Sound f) (registered : f.Registered i key)
    (live : f.isLive i) : f.At i key .waiting := by
  obtain ⟨waiters, entry, member⟩ := registered
  obtain ⟨k, phase, here, live⟩ := isLive_iff.mp live
  rcases h.registered key waiters entry i member with waits | dropped
  · exact waits
  · obtain ⟨_, rfl⟩ := dropped.unique here
    contradiction

theorem Sound.keeps_served (h : Sound f) (step : Step f action result g)
    (served : f.Served i key value) : g.Served i key value := by
  obtain ⟨unstarted, phases⟩ := served
  have settled (phase : Phase Value) (here : f.At i key phase) (calm : ¬phase.Contends) :
      i ∉ g.loads := by
    intro member
    rcases step.started member with old | ⟨k, p, _, there, contends, _⟩
    · exact unstarted old
    · obtain ⟨_, rfl⟩ := here.unique there
      exact calm contends
  rcases phases with sent | done | dropped
  · refine ⟨settled _ sent (by simp [Phase.Contends]), ?_⟩
    obtain ⟨new, came, turn⟩ := h.forward step sent
    cases turn with
    | stay => exact .inl came
    | join contends | lead contends | pass contends => rcases contends with h | h <;> contradiction
    | receive => exact .inr (.inl came)
    | dropped => exact .inr (.inr came)
  · exact ⟨settled _ done (by simp [Phase.Contends]), .inr (.inl (h.keeps_done step done))⟩
  · refine ⟨settled _ dropped (by simp [Phase.Contends]), .inr (.inr ?_)⟩
    obtain ⟨new, came, turn⟩ := h.forward step dropped
    cases turn with
    | stay => exact came
    | join contends | lead contends | pass contends => rcases contends with h | h <;> contradiction
    | dropped => exact came

namespace Run

variable {run : Run Key Value} {n m e j : Nat} {other : Value}

theorem Returns.step (returns : run.Returns i n value) :
    Step (run.state n) (.poll i) (some value) (run.state (n + 1)) := by
  have step := Run.step returns.1
  rwa [show ((run.state n).act (.poll i)).1 = some value from returns.2] at step

/-- A future completes with what it was sent, or with what its own load ends with. -/
theorem Returns.source (returns : run.Returns i n value) :
    ∃ key, (run.state (n + 1)).At i key (.done value) ∧
      ((run.state n).At i key (.sent value) ∧ i ∉ (run.state (n + 1)).loads ∨
        run.Ends i n value) := by
  obtain ⟨j, key, same, done, source⟩ := returns.step.returned (run.sound n)
  cases same
  refine ⟨key, done, ?_⟩
  rcases source with sent | ⟨live, started, yields⟩
  · exact .inl sent
  · exact .inr ⟨returns.1, ⟨live, started⟩, yields⟩

/-- A load that ends was led by its future, or began in the same poll. -/
theorem Ends.leads (ends : run.Ends j e value) :
    ∃ u, (run.state e).futures[j]? = some u ∧ u.outcome = some value ∧
      (u.phase = .leading ∨ u.phase.Contends ∧ u.key ∉ (run.state e).keys) := by
  obtain ⟨here, ⟨live, started⟩, u, found, ready⟩ := ends
  refine ⟨u, found, ready, ?_⟩
  have there := at_of_found found
  rcases (Run.step here).started started with old | ⟨k, p, _, came, contends, free⟩
  · have executes : (run.state e).Executes j u.key :=
      ⟨old, u.phase, there, by simpa [isLive, found] using live⟩
    obtain ⟨_, leading⟩ := ((run.sound e).executes_iff.mp executes).unique there
    exact .inl leading
  · obtain ⟨same, rfl⟩ := there.unique came
    exact .inr ⟨contends, same ▸ free⟩

theorem Ends.returns (ends : run.Ends j e value) : run.Returns j e value := by
  obtain ⟨u, found, ready, leading | ⟨contends, free⟩⟩ := ends.leads
  · exact ⟨ends.1, by rw [poll_finish found leading ready]⟩
  · exact ⟨ends.1, by rw [poll_pass found contends free ready]⟩

/-- The value of a load reaches all that wait for it. -/
theorem Ends.serves (ends : run.Ends j e value) (same : (run.state e).For j key)
    (waits : (run.state e).At i key .waiting) : (run.state (e + 1)).Served i key value := by
  have sound := run.sound e
  obtain ⟨u, found, ready, leading⟩ := ends.leads
  have there := at_of_found found
  obtain ⟨phase, came⟩ := same
  obtain ⟨rfl, rfl⟩ := there.unique came
  rcases leading with leading | ⟨_, free⟩
  · have leads : (run.state e).At j u.key .leading := leading ▸ there
    have next : run.state (e + 1) =
        (run.state e).retire j u.key (.sent value) (.done value) := by
      rw [state_succ ends.1, act, poll_finish found leading ready]
    have apart : i ≠ j := by
      rintro rfl
      obtain ⟨_, clash⟩ := leads.unique waits
      contradiction
    refine ⟨fun member => ?_, .inl ?_⟩
    · rw [next, loads_retire] at member
      exact sound.past i u.key _ member waits
    · rw [next, sound.at_retire leads, if_neg apart]
      exact .inr ⟨waits, rfl, rfl⟩
  · obtain ⟨waiters, entry, _⟩ := sound.waiting i u.key waits
    exact absurd (mem_keys_iff.mpr ⟨waiters, entry⟩) free

theorem returns_of_served (served : (run.state n).Served i key value)
    (here : run[n]? = some (.poll i)) (live : (run.state n).isLive i) : run.Returns i n value := by
  obtain ⟨k, phase, there, live⟩ := isLive_iff.mp live
  rcases served.2 with sent | done | dropped
  · obtain ⟨u, found, rfl, phase⟩ := sent
    exact ⟨here, by rw [poll_receive found phase]⟩
  · obtain ⟨_, rfl⟩ := done.unique there
    contradiction
  · obtain ⟨_, rfl⟩ := dropped.unique there
    contradiction

theorem not_returns (waits : (run.state n).At i key .waiting) : ¬run.Returns i n other := by
  obtain ⟨u, found, _, phase⟩ := waits
  rintro ⟨_, returned⟩
  simp [poll, found, phase] at returned

/-- A future that waited when a load ended completes after that, and with the value of the load. -/
theorem agrees_of_served (waits : (run.state e).At i key .waiting)
    (served : (run.state (e + 1)).Served i key value) (returns : run.Returns i n other) :
    e < n ∧ other = value := by
  obtain ⟨k, done, _⟩ := returns.source
  rcases Nat.lt_or_ge e n with after | before
  · refine ⟨after, ?_⟩
    have later : (run.state (n + 1)).Served i key value :=
      keeps (P := fun f => f.Served i key value) Sound.keeps_served served (by omega)
    rcases later.2 with sent | same | dropped
    · obtain ⟨_, clash⟩ := sent.unique done
      contradiction
    · obtain ⟨_, same⟩ := same.unique done
      exact Phase.done.inj same
    · obtain ⟨_, clash⟩ := dropped.unique done
      contradiction
  · rcases Nat.eq_or_lt_of_le before with rfl | before
    · exact absurd returns (not_returns waits)
    · -- A future that has completed does not wait any more.
      obtain ⟨_, clash⟩ := waits.unique (done_later done (by omega))
      contradiction

/-- Every completed future has the value of a load for its key that executed at its first poll or
later. A future that led a load has the value of that load. All that were registered and not dropped
when a load for their key ended complete with the value of it when they are polled next, and their own
load is never started. -/
theorem completion_agrees (run : Run Key Value) :
    (∀ i n value, run.Returns i n value → ∃ m e j key,
        run.FirstPoll i m ∧ m ≤ e ∧ e ≤ n ∧ run.Ends j e value ∧
          (run.state n).For i key ∧ (run.state n).For j key) ∧
      (∀ i n value, run.Returns i n value → i ∈ (run.state (n + 1)).loads → run.Ends i n value) ∧
      (∀ j e value, run.Ends j e value → run.Returns j e value) ∧
      (∀ j e value key i, run.Ends j e value → (run.state e).For j key →
        (run.state e).Registered i key → (run.state e).isLive i → ∀ n,
          i ∉ (run.state n).loads ∧
            (∀ other, run.Returns i n other → e < n ∧ other = value) ∧
            (e < n → run[n]? = some (.poll i) → (run.state n).isLive i →
              run.Returns i n value)) := by
  refine ⟨fun i n value returns => ?_, fun i n value returns started => ?_,
    fun j e value ends => ends.returns, fun j e value key i ends same registered live n => ?_⟩
  · obtain ⟨key, done, ⟨sent, _⟩ | ends⟩ := returns.source
    · obtain ⟨e, before, j, ends, leads, waits⟩ := ended_of_sent sent
      obtain ⟨l, earlier, polled⟩ := polled_of_at waits (by simp) (by simp)
      obtain ⟨m, first, firstPoll⟩ := exists_firstPoll polled
      exact ⟨m, e, j, key, firstPoll, by omega, by omega, ends, ⟨_, sent⟩,
        for_later ⟨_, leads⟩ (by omega)⟩
    · obtain ⟨u, found, _⟩ := ends.leads
      have there := at_of_found found
      obtain ⟨m, first, firstPoll⟩ := exists_firstPoll ⟨ends.1, there.lt_length⟩
      exact ⟨m, n, i, u.key, firstPoll, first, Nat.le_refl n, ends, ⟨_, there⟩, ⟨_, there⟩⟩
  · obtain ⟨key, done, ⟨_, unstarted⟩ | ends⟩ := returns.source
    · exact absurd started unstarted
    · exact ends
  · have waits := (run.sound e).waiting_of_registered registered live
    have served := ends.serves same waits
    have later (after : e < n) : (run.state n).Served i key value :=
      keeps (P := fun f => f.Served i key value) Sound.keeps_served served after
    refine ⟨fun started => ?_, fun other returns => agrees_of_served waits served returns,
      fun after here live => returns_of_served (later after) here live⟩
    rcases Nat.lt_or_ge e n with after | before
    · exact (later after).1 started
    · exact (run.sound e).past i key _ (loads_later started before) waits

end Run

end Isolate.Flight
