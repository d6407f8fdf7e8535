import Isolate.Proofs.Flight.Agreement

/-!
# No waiter is left behind

A future that was polled and is not over leads the load of its key, or is registered with the future
that does, or has been told something and finds it when it is polled next. When a leader is dropped,
the first of those that it leaves behind, or of those that come anew, leads in its place.
-/

namespace Isolate.Flight

variable {Key Value : Type} [DecidableEq Key]

/-- A future is registered for its key while another future executes the load of it. -/
def Waits (f : Flight Key Value) (i : Nat) (key : Key) : Prop :=
  f.Registered i key ∧ ∃ j, j ≠ i ∧ f.Executes j key

/-- A future turns to the table when it is polled next. -/
def Contends (f : Flight Key Value) (i : Nat) (key : Key) : Prop :=
  ∃ phase, f.At i key phase ∧ phase.Contends

/-- A future was told something that it has not found yet. -/
def Phase.IsTold : Phase Value → Prop
  | .sent _ => True
  | .cancelled => True
  | _ => False

/-- The channel of a future is resolved: it was told something that it has not found yet. -/
def Resolved (f : Flight Key Value) (i : Nat) (key : Key) : Prop :=
  ∃ phase, f.At i key phase ∧ phase.IsTold

variable {f g : Flight Key Value} {action : Action Key Value} {result : Option Value} {i j : Nat}
  {key : Key} {phase : Phase Value} {value : Value}

/-- A contender that is polled while the load of its key executes joins the waiters. -/
theorem Sound.poll_busy (h : Sound f) (contends : f.Contends i key) (busy : f.Executes j key) :
    (f.poll i).1 = none ∧ (f.poll i).2.Waits i key ∧ (f.poll i).2.Executes j key := by
  obtain ⟨_, ⟨u, found, rfl, rfl⟩, contends⟩ := contends
  have mover := at_of_found found
  have leads := h.executes_iff.mp busy
  have member : u.key ∈ f.keys := h.loading j u.key leads
  obtain ⟨waiters, entry⟩ := mem_keys_iff.mp member
  have apart : j ≠ i := by
    rintro rfl
    obtain ⟨_, clash⟩ := leads.unique mover
    rcases contends with phase | phase <;> simp [phase] at clash
  have executes : (f.join i u.key).Executes j u.key := by
    rw [(h.join mover contends member).executes_iff, at_join mover, if_neg apart]
    exact leads
  rw [poll_join found contends member]
  exact ⟨rfl, ⟨⟨waiters ++ [i], by simp [entry], by simp⟩, j, apart, executes⟩, executes⟩

/-- A contender that is polled while nobody executes the load of its key leads it. The load executes
from now on, unless it ends in the same poll. -/
theorem Sound.poll_free (h : Sound f) (contends : f.Contends i key)
    (free : ∀ j, ¬f.Executes j key) :
    i ∉ f.loads ∧ i ∈ (f.poll i).2.loads ∧
      ((f.poll i).2.Executes i key ∨
        ∃ value, f.Yields i value ∧ (f.poll i).1 = some value ∧
          (f.poll i).2.At i key (.done value)) := by
  obtain ⟨_, ⟨u, found, rfl, rfl⟩, contends⟩ := contends
  have mover := at_of_found found
  have absent : u.key ∉ f.keys := fun member => by
    obtain ⟨j, executes⟩ := h.mem_keys.mp member
    exact free j executes
  have unstarted : i ∉ f.loads := fun started => by
    have past := h.past i u.key _ started mover
    rcases contends with phase | phase <;> simp [phase, Phase.IsPast] at past
  have leads : (f.lead i u.key).At i u.key .leading := (at_lead mover _).mpr (by simp)
  cases ready : u.outcome with
  | none =>
    rw [poll_lead found contends absent ready]
    exact ⟨unstarted, by simp, .inl ((h.lead mover contends absent).executes_iff.mpr leads)⟩
  | some value =>
    rw [poll_pass found contends absent ready]
    exact ⟨unstarted, by simp, .inr ⟨value, ⟨u, found, ready⟩, rfl,
      (Flight.at_retire leads ..).mpr (by simp)⟩⟩

/-- A future that was polled is not new any more. -/
theorem Sound.seen_of_poll (h : Sound f) (here : f.At i key phase) :
    ∃ new, (f.poll i).2.At i key new ∧ new ≠ .fresh := by
  by_cases contends : phase.Contends
  · by_cases busy : ∃ j, f.Executes j key
    · obtain ⟨j, busy⟩ := busy
      obtain ⟨_, ⟨⟨waiters, entry, member⟩, _⟩, _⟩ := h.poll_busy ⟨phase, here, contends⟩ busy
      rcases (h.act (.poll i)).registered key waiters entry i member with came | came
      · exact ⟨_, came, by simp⟩
      · exact ⟨_, came, by simp⟩
    · have free : ∀ j, ¬f.Executes j key := fun j executes => busy ⟨j, executes⟩
      obtain ⟨_, _, executes | ⟨value, _, _, done⟩⟩ := h.poll_free ⟨phase, here, contends⟩ free
      · exact ⟨_, (h.act (.poll i)).executes_iff.mp executes, by simp⟩
      · exact ⟨_, done, by simp⟩
  · obtain ⟨new, came, turn⟩ := h.forward (step_poll i) here
    refine ⟨new, came, ?_⟩
    rintro rfl
    generalize (f.poll i).1 = result at turn
    cases turn with
    | stay => exact contends (.inl rfl)

theorem Sound.keeps_seen (h : Sound f) (step : Step f action result g)
    (seen : ∃ phase, f.At i key phase ∧ phase ≠ .fresh) :
    ∃ phase, g.At i key phase ∧ phase ≠ .fresh := by
  obtain ⟨phase, here, old⟩ := seen
  obtain ⟨new, came, turn⟩ := h.forward step here
  refine ⟨new, came, ?_⟩
  rintro rfl
  cases turn with
  | stay => exact old rfl

/-- A live future that is not new is in one of three situations, and in one only. -/
theorem Sound.situation (h : Sound f) (here : f.At i key phase) (live : phase.isLive)
    (old : phase ≠ .fresh) :
    (f.Executes i key ∨ f.Waits i key ∨ f.Resolved i key) ∧
      ¬(f.Executes i key ∧ f.Waits i key) ∧ ¬(f.Executes i key ∧ f.Resolved i key) ∧
        ¬(f.Waits i key ∧ f.Resolved i key) := by
  have executes (leads : f.Executes i key) : phase = .leading :=
    ((h.executes_iff.mp leads).unique here).2
  have waits (waits : f.Waits i key) : phase = .waiting := by
    have came := h.waiting_of_registered waits.1 (isLive_iff.mpr ⟨key, phase, here, live⟩)
    exact (came.unique here).2
  have told (resolved : f.Resolved i key) : phase.IsTold := by
    obtain ⟨_, came, told⟩ := resolved
    obtain ⟨_, rfl⟩ := here.unique came
    exact told
  refine ⟨?_, ?_, ?_, ?_⟩
  · cases phase with
    | fresh => exact absurd rfl old
    | leading => exact .inl (h.executes_iff.mpr here)
    | waiting =>
      obtain ⟨waiters, entry, member⟩ := h.waiting i key here
      obtain ⟨j, leads⟩ := h.leader key (mem_keys_iff.mpr ⟨waiters, entry⟩)
      have apart : j ≠ i := by
        rintro rfl
        obtain ⟨_, clash⟩ := leads.unique here
        contradiction
      exact .inr (.inl ⟨⟨waiters, entry, member⟩, j, apart, h.executes_iff.mpr leads⟩)
    | sent | cancelled => exact .inr (.inr ⟨_, here, trivial⟩)
    | done | dropped => contradiction
  · rintro ⟨one, other⟩
    have clash := waits other
    rw [executes one] at clash
    contradiction
  · rintro ⟨one, other⟩
    have := told other
    rw [executes one] at this
    exact this
  · rintro ⟨one, other⟩
    have := told other
    rw [waits one] at this
    exact this

/-- While no contender for a key is polled, nobody begins the load of it. -/
theorem Step.keeps_free (step : Step f action result g) (free : key ∉ f.keys)
    (quiet : ∀ i, action = .poll i → ¬f.Contends i key) : key ∉ g.keys := by
  cases step with
  | @lead i u found contends =>
    have other : key ≠ u.key := by
      rintro rfl
      exact quiet i rfl ⟨_, at_of_found found, contends⟩
    simp [free, other]
  | join => simpa using free
  | pass | finish | abandon => simp [free]
  | _ => exact free

theorem Sound.keeps_dropped (h : Sound f) (step : Step f action result g)
    (here : f.At i key .dropped) : g.At i key .dropped := by
  obtain ⟨new, came, turn⟩ := h.forward step here
  cases turn with
  | stay | dropped => exact came
  | join contends | lead contends | pass contends => rcases contends with h | h <;> contradiction

/-- What a future was told stays for it until it is polled or dropped. -/
theorem Sound.keeps_told (h : Sound f) (step : Step f action result g) (here : f.At i key phase)
    (told : phase.IsTold) (unpolled : action ≠ .poll i) :
    g.At i key phase ∨ g.At i key .dropped := by
  obtain ⟨new, came, turn⟩ := h.forward step here
  cases turn with
  | stay => exact .inl came
  | join | lead | pass | finish | receive => exact absurd rfl unpolled
  | sent | cancelled => contradiction
  | dropped => exact .inr came

/-- The waiters of a dropped leader are cancelled, and nobody leads in its place yet. -/
theorem Sound.drop_leader (h : Sound f) (leads : f.Executes j key) :
    key ∉ (f.drop j).keys ∧ (f.drop j).At j key .dropped ∧
      ∀ i, f.At i key .waiting → (f.drop j).At i key .cancelled := by
  have leads := h.executes_iff.mp leads
  have left : f.drop j = f.retire j key .cancelled .dropped := by
    obtain ⟨u, found, rfl, leading⟩ := leads
    simp only [drop, found, leading]
    rfl
  rw [left]
  refine ⟨by simp, (h.at_retire leads ..).mpr (by simp), fun i waits => ?_⟩
  rw [h.at_retire leads]
  split
  next same =>
    obtain ⟨_, clash⟩ := leads.unique (same ▸ waits)
    contradiction
  next => exact .inr ⟨waits, rfl, rfl⟩

/-- A waiter waits as long as the same future executes the load of its key. -/
theorem Sound.keeps_waiting (h : Sound f) (waits : f.At i key .waiting)
    (before : f.Executes j key) (later : (f.act action).2.Executes j key) :
    (f.act action).2.At i key .waiting ∨ (f.act action).2.At i key .dropped := by
  have leads := (h.act action).executes_iff.mp later
  have step := step_act f action
  obtain ⟨new, came, turn⟩ := h.forward step waits
  generalize result : (f.act action).1 = returned at turn
  cases turn with
  | stay | join => exact .inl came
  | dropped => exact .inr came
  | lead contends | pass contends => rcases contends with h | h <;> contradiction
  | @sent l value leading =>
    rw [result] at step
    obtain ⟨_, k, same, done, _⟩ := step.returned h
    cases same
    rw [h.one_leader l j key leading (h.executes_iff.mp before)] at done leads
    obtain ⟨_, clash⟩ := leads.unique done
    contradiction
  | @cancelled l leading =>
    rw [h.one_leader l j key leading (h.executes_iff.mp before)] at leads
    obtain ⟨_, dropped, _⟩ := h.drop_leader before
    obtain ⟨_, clash⟩ := leads.unique dropped
    contradiction

namespace Run

variable {run : Run Key Value} {n m d : Nat}

/-- In action number `n` the load of a future starts. It executes afterwards, unless it ends in the
same action. -/
def Leads (run : Run Key Value) (i n : Nat) (key : Key) : Prop :=
  i ∉ (run.state n).loads ∧ i ∈ (run.state (n + 1)).loads ∧
    ((run.state (n + 1)).Executes i key ∨ ∃ value, run.Ends i n value)

/-- In action number `n` a future is registered with the future that executes the load of its key. -/
def Joins (run : Run Key Value) (i n : Nat) (key : Key) : Prop :=
  (∀ value, ¬run.Returns i n value) ∧ (run.state (n + 1)).Waits i key ∧
    ∃ j, (run.state n).Executes j key ∧ (run.state (n + 1)).Executes j key

/-- No future is polled from action number `m` on and before action number `n` that contends for a
key. -/
def Calm (run : Run Key Value) (key : Key) (m n : Nat) : Prop :=
  ∀ k i, m ≤ k → k < n → run[k]? = some (.poll i) → ¬(run.state k).Contends i key

theorem joins_of_busy (here : run[n]? = some (.poll i)) (contends : (run.state n).Contends i key)
    (busy : (run.state n).Executes j key) : run.Joins i n key := by
  obtain ⟨result, waits, executes⟩ := (run.sound n).poll_busy contends busy
  rw [show ((run.state n).poll i).2 = run.state (n + 1) from (state_succ here).symm]
    at waits executes
  refine ⟨fun value => ?_, waits, j, busy, executes⟩
  rintro ⟨_, returned⟩
  rw [result] at returned
  contradiction

theorem leads_of_free (here : run[n]? = some (.poll i)) (contends : (run.state n).Contends i key)
    (free : ∀ j, ¬(run.state n).Executes j key) : run.Leads i n key := by
  obtain ⟨unstarted, started, rest⟩ := (run.sound n).poll_free contends free
  rw [show ((run.state n).poll i).2 = run.state (n + 1) from (state_succ here).symm]
    at started rest
  refine ⟨unstarted, started, ?_⟩
  rcases rest with executes | ⟨value, yields, _⟩
  · exact .inl executes
  · obtain ⟨phase, there, contends⟩ := contends
    have live : (run.state n).isLive i := by
      refine isLive_iff.mpr ⟨key, phase, there, ?_⟩
      rcases contends with rfl | rfl <;> rfl
    exact .inr ⟨value, here, ⟨live, started⟩, yields⟩

/-- A polled future is not new any more. -/
theorem seen_later (polled : run.Polled i m) (later : m < n) :
    ∃ key phase, (run.state n).At i key phase ∧ phase ≠ .fresh := by
  obtain ⟨here, created⟩ := polled
  have there := at_of_found (List.getElem?_eq_getElem created)
  have now : ∃ phase, (run.state (m + 1)).At i (run.state m).futures[i].key phase ∧
      phase ≠ .fresh := by
    rw [state_succ here]
    exact (run.sound m).seen_of_poll there
  exact ⟨_, keeps (P := fun f => ∃ phase, f.At i _ phase ∧ phase ≠ .fresh) Sound.keeps_seen now
    later⟩

/-- A future that executes its load has executed it since the load was started. -/
theorem executes_before (started : i ∈ (run.state m).loads) (later : m ≤ n)
    (executes : (run.state n).Executes i key) : (run.state m).Executes i key := by
  have there := at_of_found (List.getElem?_eq_getElem ((run.sound m).created i started))
  have leads := (run.sound n).executes_iff.mp executes
  obtain ⟨_, same⟩ := for_later ⟨_, there⟩ later
  obtain ⟨rfl, _⟩ := leads.unique same
  have past := (run.sound m).past i _ _ started there
  generalize ((run.state m).futures.get ⟨i, (run.sound m).created i started⟩).phase = phase at there past
  cases phase with
  | leading => exact (run.sound m).executes_iff.mpr there
  | done value =>
    obtain ⟨_, clash⟩ := leads.unique (done_later there later)
    contradiction
  | dropped =>
    obtain ⟨_, clash⟩ := leads.unique (keeps Sound.keeps_dropped there later)
    contradiction
  | _ => contradiction

/-- What a future was told it finds at its next poll. -/
theorem told_later (told : phase.IsTold) (there : (run.state m).At i key phase) (later : m ≤ n)
    (unpolled : ∀ k, m ≤ k → k < n → (run.state k).At i key phase → run[k]? ≠ some (.poll i))
    (live : (run.state n).isLive i) : (run.state n).At i key phase := by
  have kept : (run.state n).At i key phase ∨ (run.state n).At i key .dropped := by
    refine keeps_between
      (P := fun f => f.At i key phase ∨ f.At i key .dropped) ?_ (.inl there) later
    rintro k action first last here (now | now)
    · exact (run.sound k).keeps_told (step here) now told fun same =>
        unpolled k first last now (same ▸ here)
    · exact .inr ((run.sound k).keeps_dropped (step here) now)
  rcases kept with kept | dropped
  · exact kept
  · obtain ⟨_, _, other, live⟩ := isLive_iff.mp live
    obtain ⟨_, rfl⟩ := dropped.unique other
    contradiction

/-- A future that contends for a key which another future executes waits for that one, as long as
both are there. -/
theorem waits_later (contends : (run.state m).Contends i key) (here : run[m]? = some (.poll i))
    (started : j ∈ (run.state m).loads) (later : m < n) (executes : (run.state n).Executes j key)
    (live : (run.state n).isLive i) : (run.state n).Waits i key := by
  have since (k : Nat) (first : m ≤ k) (last : k ≤ n) : (run.state k).Executes j key :=
    executes_before (loads_later started first) last executes
  obtain ⟨_, ⟨⟨waiters, entry, member⟩, _⟩, _⟩ :=
    joins_of_busy here contends (since m (by omega) (by omega))
  have kept : (run.state n).At i key .waiting ∨ (run.state n).At i key .dropped := by
    refine keeps_between (P := fun f => f.At i key .waiting ∨ f.At i key .dropped) ?_
      ((run.sound _).registered key waiters entry i member) later
    rintro k action first last here (waits | dropped)
    · have before := since k (by omega) (by omega)
      have after := since (k + 1) (by omega) (by omega)
      rw [state_succ here] at after ⊢
      exact (run.sound k).keeps_waiting waits before after
    · exact .inr ((run.sound k).keeps_dropped (step here) dropped)
  obtain ⟨_, _, there, live⟩ := isLive_iff.mp live
  rcases kept with waits | dropped
  · obtain ⟨waiters, entry, member⟩ := (run.sound n).waiting i key waits
    refine ⟨⟨waiters, entry, member⟩, j, ?_, executes⟩
    rintro rfl
    obtain ⟨_, clash⟩ := ((run.sound n).executes_iff.mp executes).unique waits
    contradiction
  · obtain ⟨_, rfl⟩ := dropped.unique there
    contradiction

/-- After the leader of a key is dropped nobody leads it until a future that contends for it is
polled, and its waiters are cancelled. -/
theorem calm_of_drop (dropped : run[d]? = some (.drop j)) (led : (run.state d).Executes j key)
    (later : d < n) (calm : run.Calm key (d + 1) n) :
    (∀ i, ¬(run.state n).Executes i key) ∧
      ∀ i, (run.state d).Waits i key → (run.state n).isLive i →
        (run.state n).At i key .cancelled := by
  have next : run.state (d + 1) = (run.state d).drop j := state_succ dropped
  obtain ⟨free, _, cancelled⟩ := (run.sound d).drop_leader led
  rw [← next] at free cancelled
  constructor
  · have still : key ∉ (run.state n).keys :=
      keeps_between (P := fun f => key ∉ f.keys) (fun k action first last here free =>
        (Run.step here).keeps_free free fun i same => calm k i first last (same ▸ here)) free later
    exact fun i executes => still ((run.sound n).mem_keys.mpr ⟨i, executes⟩)
  · rintro i ⟨⟨waiters, entry, member⟩, _⟩ live
    rcases (run.sound d).registered key waiters entry i member with waits | gone
    · refine told_later (m := d + 1) trivial (cancelled i waits) later
        (fun k first last now polled => ?_) live
      exact calm k i first last polled ⟨.cancelled, now, .inr rfl⟩
    · obtain ⟨_, _, there, live⟩ := isLive_iff.mp live
      obtain ⟨_, rfl⟩ := (keeps Sound.keeps_dropped gone (by omega)).unique there
      contradiction

/-- In every state of a run a live future that was polled is in exactly one of three situations. It
executes the load of its key, or it is registered with another future that does, or it was told
something. In the last case its next poll returns the value that it was sent, or makes it the leader,
or registers it with the future that leads by then. When a leader is dropped, the first future that
is polled and contends for the key is the only new leader, and all others that contend for it wait on
that one. -/
theorem no_orphan (run : Run Key Value) :
    (∀ i m n, run.Polled i m → m < n → (run.state n).isLive i → ∃ key,
        (run.state n).For i key ∧
          ((run.state n).Executes i key ∨ (run.state n).Waits i key ∨ (run.state n).Resolved i key) ∧
          ¬((run.state n).Executes i key ∧ (run.state n).Waits i key) ∧
          ¬((run.state n).Executes i key ∧ (run.state n).Resolved i key) ∧
          ¬((run.state n).Waits i key ∧ (run.state n).Resolved i key)) ∧
      (∀ i key m n, (run.state m).Resolved i key → m ≤ n →
        (∀ k, m ≤ k → k < n → run[k]? ≠ some (.poll i)) → run[n]? = some (.poll i) →
          (run.state n).isLive i →
            (∃ value, (run.state m).At i key (.sent value) ∧ run.Returns i n value) ∨
              (run.state m).At i key .cancelled ∧
                ((∀ j, ¬(run.state n).Executes j key) ∧ run.Leads i n key ∨ run.Joins i n key)) ∧
      (∀ j key d i n, run[d]? = some (.drop j) → (run.state d).Executes j key → d < n →
        run.Calm key (d + 1) n → run[n]? = some (.poll i) → (run.state n).Contends i key →
          (∀ k, ¬(run.state n).Executes k key) ∧
            (∀ k, (run.state d).Waits k key → (run.state n).isLive k →
              (run.state n).Contends k key) ∧
            run.Leads i n key ∧
            ∀ k m p, k ≠ i → n < m → m < p → run[m]? = some (.poll k) →
              (run.state m).Contends k key → (run.state p).Executes i key →
                (run.state p).isLive k → (run.state p).Waits k key) := by
  refine ⟨fun i m n polled later live => ?_, ?_, ?_⟩
  · obtain ⟨key, phase, there, old⟩ := seen_later polled later
    obtain ⟨_, _, other, live⟩ := isLive_iff.mp live
    obtain ⟨rfl, rfl⟩ := there.unique other
    exact ⟨_, ⟨_, there⟩, (run.sound n).situation there live old⟩
  · rintro i key m n ⟨phase, there, told⟩ later unpolled here live
    have now := told_later told there later (fun k first last _ => unpolled k first last) live
    cases phase with
    | sent value =>
      obtain ⟨u, found, _, sent⟩ := now
      exact .inl ⟨value, there, here, by rw [poll_receive found sent]⟩
    | cancelled =>
      have contends : (run.state n).Contends i key := ⟨.cancelled, now, .inr rfl⟩
      refine .inr ⟨there, ?_⟩
      by_cases busy : ∃ j, (run.state n).Executes j key
      · obtain ⟨j, busy⟩ := busy
        exact .inr (joins_of_busy here contends busy)
      · have free : ∀ j, ¬(run.state n).Executes j key := fun j leads => busy ⟨j, leads⟩
        exact .inl ⟨free, leads_of_free here contends free⟩
    | _ => contradiction
  · intro j key d i n dropped led later calm here contends
    obtain ⟨free, cancelled⟩ := calm_of_drop dropped led later calm
    have leads := leads_of_free here contends free
    refine ⟨free, fun k waits live => ⟨.cancelled, cancelled k waits live, .inr rfl⟩, leads,
      fun k m p _ after before polled contends executes live => ?_⟩
    exact waits_later contends polled (loads_later leads.2.1 after) before executes live

end Run

end Isolate.Flight
