import Isolate.Proofs.Path.Order
import Isolate.Proofs.Rules.Order
import Isolate.Proofs.Worker.Evolution
import Isolate.Proofs.Worker.Verdicts

/-!
# Where records come from

The first rule that matches a path is looked up before anything is read. Only a path that it gives a
supported kind is read, and the record of a path is what the loader of that kind made of what was read.
Whatever happens to a worker, its session can account for all of its records in this way, but for the
record of the root, which no import has made.
-/

namespace Isolate

open Script

/-- A name that no supported kind has is kept as it is. -/
theorem Kind.ofName_of_unknown {name : String} (unknown : ∀ kind : Supported, name ≠ kind.name) :
    ofName name = .unsupported name := by
  have same := name_ofName name
  cases read : ofName name with
  | supported kind =>
    rw [read] at same
    exact absurd same.symm (unknown kind)
  | unsupported other =>
    rw [read] at same
    exact congrArg _ same

section Refusals

variable {σ : Type} [Store.Source σ]

/-- An import of a path fails without a read, and leaves nothing but the path, as one that was named, and
the failure. -/
def Worker.Refuses (worker : Worker σ) (session : Session Nat) (referrer : Origin)
    (specifier : Text.Units) (path : Path) (error : Error) : Prop :=
  Hosted.resolve session referrer specifier worker =
      .ok (.error error) { worker with session := some (session.refer path) } ∧
    ∃ reason after, Hosted.importModule referrer specifier worker = .ok (.error reason) after ∧
      after.session = some ((session.refer path).fail error) ∧ after.store = worker.store

theorem Worker.refuses_of_planPath {worker : Worker σ} {session : Session Nat}
    (here : worker.session = some session) {referrer : Origin} {specifier : Text.Units} {path : Path}
    (target : referrer.target specifier.toString = some path) {error : Error}
    (refused : session.planPath path = .refuse error) :
    worker.Refuses session referrer specifier path error := by
  have plan := session.plan_of_target target
  rw [refused] at plan
  have resolved : Hosted.resolve session referrer specifier worker =
      .ok (.error error) { worker with session := some (session.refer path) } :=
    Hosted.resolve_eq plan
  refine ⟨resolved, ?_⟩
  obtain ⟨reason, w', made, _, lifted⟩ := Hosted.lift_returns
    (quiet_newError .error error.describe
      ({ worker with session := some ((session.refer path).fail error) } : Worker σ).world)
  rw [Hosted.importModule_eq here, Hosted.bind_of_ok resolved, Hosted.answer_eq rfl,
    Hosted.bind_of_ok lifted]
  exact ⟨reason, _, rfl, rfl, rfl⟩

end Refusals

/-- A session can account for what it has read and for what it has loaded since its root was entered:
every path that was read has a supported kind, and every record but that of the root was made as the kind
that its path has. What is to be unwrapped are the records that were made as CommonJS. -/
structure Session.Accounts (session : Session Nat) (root : Origin) (reads : List (Path × Bool))
    (made : Path → Kind.Supported → Nat → Prop) : Prop where
  entered : ∀ path, root = .file path → (session.record? path).isSome
  reads : ∀ read ∈ reads, ∃ kind, session.rules.classify read.1 = some (.supported kind)
  records : ∀ entry ∈ session.records, root ≠ .file entry.1 →
    ∃ kind, session.rules.classify entry.1 = some (.supported kind) ∧ made entry.1 kind entry.2
  wrapped : ∀ path, path ∈ session.wrapped ↔ path ∈ session.records.map (·.1) ∧
    session.rules.classify path = some (.supported .commonJS) ∧ root ≠ .file path

namespace Session

variable {session next : Session Nat} {root : Origin} {reads : List (Path × Bool)}
  {made made' : Path → Kind.Supported → Nat → Prop} {path : Path} {kind : Kind.Supported}
  {record : Nat}

theorem not_same_of_record? (unknown : session.record? path = none) {entry : Path × Nat}
    (member : entry ∈ session.records) : ¬entry.1.same path := by
  rw [record?, Option.map_eq_none_iff, List.find?_eq_none] at unknown
  exact unknown entry member

/-- The record of a path without one goes before all others. -/
theorem records_accept (unknown : session.record? path = none) (kind : Kind.Supported)
    (record : Nat) :
    (session.accept path kind record).records = (path, record) :: session.records := by
  have kept : session.records.filter (!·.1.same path) = session.records :=
    List.filter_eq_self.mpr fun entry member => by
      simpa using not_same_of_record? unknown member
  rw [accept]
  split <;> exact congrArg _ kept

theorem rules_accept (path : Path) (kind : Kind.Supported) (record : Nat) :
    (session.accept path kind record).rules = session.rules := by
  rw [accept]
  split <;> rfl

/-- Before anything was loaded there is nothing to account for but the root. -/
theorem accounts_enter (fresh : session.records = []) (bare : session.wrapped = []) (root : Origin)
    (record : Nat) : (session.enter root record).Accounts root [] made := by
  cases root with
  | anonymous =>
    refine ⟨fun _ clash => by contradiction, fun _ member => by contradiction,
      fun entry member => ?_, fun path => ?_⟩
    · rw [enter, fresh] at member
      contradiction
    · simp [enter, fresh, bare]
  | file path =>
    have only : (session.enter (.file path) record).records = [(path, record)] := by
      rw [enter, register, fresh]
      rfl
    refine ⟨fun p same => ?_, fun _ member => by contradiction, fun entry member other => ?_,
      fun p => ?_⟩
    · obtain rfl := Origin.file.inj same
      rw [enter, record?_register, if_pos Path.same_self]
      rfl
    · rw [only, List.mem_singleton] at member
      exact absurd (congrArg (Origin.file ·.1) member.symm) other
    · have none : (session.enter (.file path) record).wrapped = [] := bare
      simp only [only, none, List.map_cons, List.map_nil, List.mem_singleton, List.not_mem_nil,
        false_iff, not_and]
      intro same _ other
      exact other (same ▸ rfl)

namespace Accounts

/-- What happens later, happens as well. -/
theorem mono (h : session.Accounts root reads made)
    (more : ∀ path kind record, made path kind record → made' path kind record) :
    session.Accounts root reads made' :=
  ⟨h.entered, h.reads, fun entry member other =>
    (h.records entry member other).imp fun _ known => ⟨known.1, more _ _ _ known.2⟩, h.wrapped⟩

/-- What does not touch the records leaves the accounts in order. -/
theorem of_eq (h : session.Accounts root reads made) (rules : next.rules = session.rules)
    (records : next.records = session.records) (wrapped : next.wrapped = session.wrapped) :
    next.Accounts root reads made := by
  obtain ⟨entered, reads, made, wraps⟩ := h
  refine ⟨fun path same => ?_, ?_, ?_, ?_⟩
  · rw [record?, records]
    exact entered path same
  · rwa [rules]
  · rwa [rules, records]
  · rwa [rules, records, wrapped]

/-- A path with a supported kind is read. -/
theorem read (h : session.Accounts root reads made)
    (classified : session.rules.classify path = some (.supported kind)) (readable : Bool) :
    session.Accounts root (reads ++ [(path, readable)]) made := by
  refine ⟨h.entered, fun read member => ?_, h.records, h.wrapped⟩
  rcases List.mem_append.mp member with member | member
  · exact h.reads read member
  · exact ⟨kind, List.mem_singleton.mp member ▸ classified⟩

/-- A record that was made as the kind of its path is accepted. -/
theorem accept (h : session.Accounts root reads made) (unknown : session.record? path = none)
    (classified : session.rules.classify path = some (.supported kind))
    (loaded : made path kind record) :
    (session.accept path kind record).Accounts root reads made := by
  have records := records_accept unknown kind record
  have rules := session.rules_accept path kind record
  -- The root has a record from the start, so that no path without one is the root's.
  have other : root ≠ .file path := fun same => by
    have known := h.entered path same
    rw [unknown] at known
    contradiction
  have wrapped (p : Path) : p ∈ (session.accept path kind record).wrapped ↔
      kind = .commonJS ∧ p = path ∨ p ∈ session.wrapped := by
    rw [Session.accept]
    split
    next common =>
      have apart : ¬path.isIn session.wrapped := by
        intro held
        obtain ⟨q, member, same⟩ := List.any_eq_true.mp held
        obtain ⟨entry, known, rfl⟩ := List.mem_map.mp ((h.wrapped q).mp member).1
        rw [Path.same_comm] at same
        exact not_same_of_record? unknown known same
      refine ⟨fun member => ?_, fun member => ?_⟩
      · exact (Path.mem_of_mem_insertSorted member).imp_left fun same => ⟨common, same⟩
      · rcases member with ⟨_, rfl⟩ | member
        · exact Path.mem_insertSorted_of_not_isIn apart
        · exact Path.mem_insertSorted_of_mem member
    next uncommon =>
      change p ∈ session.wrapped ↔ _
      simp [uncommon]
  refine ⟨fun p same => ?_, ?_, fun entry member apart => ?_, fun p => ?_⟩
  · rw [record?_accept]
    split
    · rfl
    · exact h.entered p same
  · rw [rules]
    exact h.reads
  · rw [rules]
    rw [records] at member
    rcases List.mem_cons.mp member with rfl | member
    · exact ⟨kind, classified, loaded⟩
    · exact h.records entry member apart
  · rw [wrapped, h.wrapped, rules, records, List.map_cons, List.mem_cons]
    constructor
    · rintro (⟨rfl, rfl⟩ | ⟨member, common, apart⟩)
      · exact ⟨.inl rfl, classified, other⟩
      · exact ⟨.inr member, common, apart⟩
    · rintro ⟨rfl | member, common, apart⟩
      · exact .inl ⟨Kind.supported.inj (Option.some.inj (classified.symm.trans common)), rfl⟩
      · exact .inr ⟨member, common, apart⟩

end Accounts

end Session

namespace Hosted

variable {σ : Type} [Store.Source σ]

/-- An import that gives a path its record loads what the file holds as the kind that the path has. -/
theorem load_of_importModule {worker : Worker σ} {session : Session Nat}
    (here : worker.session = some session) {referrer : Origin} {specifier : Text.Units} {path : Path}
    (target : referrer.target specifier.toString = some path) (unknown : session.record? path = none)
    {record : Nat}
    (value : (importModule referrer specifier).value? worker = some (.ok record)) :
    ∃ kind bytes w, session.rules.classify path = some (.supported kind) ∧
      (Store.Source.read worker.store path).1 = .ok bytes ∧
      Loader.load path kind bytes worker.world = .ok (.ok record) w := by
  obtain ⟨answered, after, result, next, done, resolved, _, cases⟩ :=
    importModule_ends here referrer specifier
  rw [value?_of_ok done, Option.some.injEq] at value
  subst value
  obtain rfl : result = .ok record := by
    rcases cases with ⟨_, rfl, same, _⟩ | ⟨_, _, _, clash, _⟩
    · rw [Except.ok.inj same]
    · contradiction
  have plan := session.plan_of_target target
  rcases Session.planPath_of_unknown unknown with ⟨error, refused⟩ | ⟨kind, classified, load⟩
  · rw [refused] at plan
    rw [value?_of_ok (resolve_eq plan)] at resolved
    cases resolved
  · rw [load] at plan
    have begun : ({ worker with session := some (session.refer path) } : Worker σ).session =
        some (session.refer path) := rfl
    obtain ⟨result, after, done, told, _⟩ := loadPath_ends begun path kind
    rw [value?_of_ok ((resolve_eq plan).trans done), Option.some.injEq] at resolved
    subst resolved
    dsimp only at told
    cases content : (Store.Source.read worker.store path).1 with
    | error e =>
      rw [content] at told
      contradiction
    | ok bytes =>
      rw [content] at told
      obtain ⟨w, loaded⟩ := told
      exact ⟨kind, bytes, w, classified, rfl, loaded⟩

end Hosted

namespace Worker

open Hosted

variable {σ : Type} [Store.Source σ]

/-- Deed number `n` imports a path that is read then, and the loader of a kind makes the record of what
was read. -/
def Makes (start : Worker (Store.Watched σ)) (deeds : List (Deed σ)) (n : Nat) (path : Path)
    (kind : Kind.Supported) (record : Nat) : Prop :=
  ∃ referrer specifier bytes w, deeds[n]? = some (.resolve referrer specifier) ∧
    referrer.target specifier.toString = some path ∧
    (start.state deeds n).record? path = none ∧
    (start.state deeds (n + 1)).store.reads = (start.state deeds n).store.reads ++ [(path, true)] ∧
    (Store.Source.read (start.state deeds n).store path).1 = .ok bytes ∧
    Loader.load path kind bytes (start.state deeds n).world = .ok (.ok record) w

def Accounts (worker : Worker (Store.Watched σ)) (rules : Rules) (root : Origin)
    (made : Path → Kind.Supported → Nat → Prop) : Prop :=
  ∃ session, worker.session = some session ∧ session.rules = rules ∧
    session.Accounts root worker.store.reads made

variable {start : Worker (Store.Watched σ)} {rules : Rules} {root : Origin} {deeds : List (Deed σ)}
  {n : Nat}

/-- A deed leaves the accounts in order, with what it has made. -/
theorem accounts_state_succ
    (h : (start.state deeds n).Accounts rules root fun path kind record =>
      ∃ k < n, start.Makes deeds k path kind record) {deed : Deed σ} (here : deeds[n]? = some deed) :
    (start.state deeds (n + 1)).Accounts rules root fun path kind record =>
      ∃ k < n + 1, start.Makes deeds k path kind record := by
  obtain ⟨session, held, same, accounts⟩ := h
  have accounts : session.Accounts root (start.state deeds n).store.reads fun path kind record =>
      ∃ k < n + 1, start.Makes deeds k path kind record :=
    accounts.mono fun _ _ _ ⟨k, before, makes⟩ => ⟨k, Nat.lt_succ_of_lt before, makes⟩
  have next := start.state_succ here
  cases deed with
  | resolve referrer specifier =>
    obtain ⟨read, result, after, resolves, left, reads, value⟩ :=
      importModule_resolves held referrer specifier
    rw [act] at next
    rw [← next] at left reads
    rw [Accounts, left, reads]
    cases resolves with
    | unnamed _ error =>
      refine ⟨_, rfl, same, ?_⟩
      rw [Option.toList_none, List.append_nil]
      exact accounts.of_eq rfl rfl rfl
    | refused | reused =>
      refine ⟨_, rfl, same, ?_⟩
      rw [Option.toList_none, List.append_nil]
      exact accounts.of_eq rfl rfl rfl
    | failed _ _ classified readable =>
      exact ⟨_, rfl, same, (accounts.read classified readable).of_eq rfl rfl rfl⟩
    | stopped _ _ classified =>
      exact ⟨_, rfl, same, (accounts.read classified true).of_eq rfl rfl rfl⟩
    | @loaded path kind target unknown classified record =>
      refine ⟨_, rfl, (Session.rules_accept ..).trans same, ?_⟩
      obtain ⟨kind', bytes, w, classified', content, loaded⟩ :=
        load_of_importModule held target unknown ((value record).mpr rfl)
      obtain rfl := Kind.supported.inj (Option.some.inj (classified'.symm.trans classified))
      have makes : start.Makes deeds n path kind' record := by
        refine ⟨referrer, specifier, bytes, w, here, target, ?_, reads, content, loaded⟩
        rw [record?, held, Option.bind_some, unknown]
      have begun : ((((session.refer path).beginLoad path).endLoad path)).Accounts root
          ((start.state deeds n).store.reads ++ [(path, true)]) fun path kind record =>
            ∃ k < n + 1, start.Makes deeds k path kind record :=
        (accounts.read classified true).of_eq rfl rfl rfl
      exact begun.accept unknown classified ⟨n, Nat.lt_succ_self n, makes⟩
  | bind =>
    refine ⟨session.bind.toOption.getD session, by rw [next, act, held]; rfl, ?_⟩
    rw [next]
    cases bound : session.bind with
    | error => exact ⟨same, accounts⟩
    | ok bound' =>
      rw [Session.eq_of_bind bound]
      exact ⟨same, accounts.of_eq rfl rfl rfl⟩
  | clearFailures =>
    refine ⟨session.clearFailures, by rw [next, act, held]; rfl, same, ?_⟩
    rw [next]
    exact accounts.of_eq rfl rfl rfl
  | takeFailure text fallback =>
    refine ⟨(session.takeFailure text fallback).2, by rw [next, act, held]; rfl, ?_⟩
    rw [next, Session.takeFailure]
    split
    · exact ⟨same, accounts.of_eq rfl rfl rfl⟩
    · exact ⟨same, accounts⟩
  | change change =>
    refine ⟨session, by rw [next, act, held], same, ?_⟩
    rw [next]
    exact accounts

/-- Whatever is done to a worker from the entry of the root on, the accounts are in order at every
moment. -/
theorem accounts_state {session : Session Nat} (fresh : session.records = [])
    (bare : session.wrapped = []) (unread : start.store.reads = []) {record : Nat}
    (entered : start.session = some (session.enter root record)) (deeds : List (Deed σ)) (n : Nat) :
    (start.state deeds n).Accounts session.rules root fun path kind record =>
      ∃ k < n, start.Makes deeds k path kind record := by
  induction n with
  | zero =>
    refine ⟨_, entered, by cases root <;> rfl, ?_⟩
    change (session.enter root record).Accounts root start.store.reads _
    rw [unread]
    exact Session.accounts_enter fresh bare root record
  | succ n ih =>
    cases here : deeds[n]? with
    | some deed => exact accounts_state_succ ih here
    | none =>
      obtain ⟨session, held, same, accounts⟩ := ih
      rw [state_end here]
      exact ⟨session, held, same, accounts.mono fun _ _ _ ⟨k, before, makes⟩ =>
        ⟨k, Nat.lt_succ_of_lt before, makes⟩⟩

end Worker

namespace Worker

variable {σ : Type} [Store.Source σ]

/-- All that a worker does leads it from a state to another one: every law of workers holds between
them. -/
def Leads (first later : Worker σ) : Prop :=
  ∀ (S : Worker σ → Worker σ → Prop) [Worker.IsLaw S], S first later

instance : Worker.IsLaw (Leads (σ := σ)) where
  refl worker _ law := law.refl worker
  trans _ _ _ earlier later S law := law.trans _ _ _ (earlier S) (later S)
  lift lawful worker _ law := law.lift lawful worker
  importModule referrer specifier worker _ law := law.importModule referrer specifier worker
  clearFailures worker _ law := law.clearFailures worker
  tasks worker queue slots free graphs _ law := law.tasks worker queue slots free graphs
  forget worker jobs requests _ law := law.forget worker jobs requests

/-- What a worker does on its own is a sequence of deeds. Each of them begins in a state that the worker
is led to. -/
def Traces (first later : Worker (Store.Watched σ)) : Prop :=
  ∃ deeds, first.after deeds = later ∧ ∀ n, first.Leads (first.state deeds n)

variable {first second third : Worker (Store.Watched σ)} {deeds deeds' : List (Deed σ)}

theorem state_append (first : Worker (Store.Watched σ)) (deeds deeds' : List (Deed σ)) (n : Nat) :
    first.state (deeds ++ deeds') n = first.state deeds n ∨
      first.state (deeds ++ deeds') n = (first.after deeds).state deeds' (n - deeds.length) := by
  rcases Nat.le_total n deeds.length with before | beyond
  · exact .inl (by rw [state, state, List.take_append_of_le_length before])
  · refine .inr ?_
    rw [state, List.take_append, List.take_of_length_le beyond, after, List.foldl_append]
    rfl

theorem Traces.trans (earlier : first.Traces second) (later : second.Traces third) :
    first.Traces third := by
  obtain ⟨deeds, rfl, led⟩ := earlier
  obtain ⟨deeds', rfl, led'⟩ := later
  have all := led deeds.length
  rw [state, List.take_length] at all
  refine ⟨deeds ++ deeds', List.foldl_append, fun n => ?_⟩
  rcases state_append first deeds deeds' n with same | same
  · exact same ▸ led n
  · exact same ▸ IsTrans.trans (r := Leads) _ _ _ all (led' _)

theorem traces_of_act (deed : Deed σ) (led : first.Leads (first.act deed)) :
    first.Traces (first.act deed) := by
  refine ⟨[deed], rfl, fun n => ?_⟩
  cases n with
  | zero => exact Std.Refl.refl (r := Leads) first
  | succ n =>
    have same : first.state [deed] (n + 1) = first.act deed := by
      rw [state, List.take_of_length_le (by simp)]
      rfl
    exact same ▸ led

theorem traces_of_eq (session : second.session = first.session) (store : second.store = first.store)
    (led : first.Leads second) : first.Traces second := by
  have same : first.act (.change fun _ => second) = second := by
    change { second with
      session := first.session, store := { second.store with reads := first.store.reads } } = second
    rw [← session, ← store]
  exact same ▸ traces_of_act _ (same.symm ▸ led)

instance : Worker.IsLaw (Traces (σ := σ)) where
  refl worker := traces_of_eq rfl rfl (Std.Refl.refl (r := Leads) worker)
  trans _ _ _ := Traces.trans
  lift {_ action} lawful worker := by
    have led := Worker.IsLaw.lift (S := Leads) lawful worker
    rw [Hosted.left_eq_final] at led ⊢
    exact traces_of_eq (Hosted.session_final_lift action worker)
      (Hosted.store_final_lift action worker) led
  importModule referrer specifier worker := by
    have led := Worker.IsLaw.importModule (S := Leads) referrer specifier worker
    rw [Hosted.left_eq_final] at led ⊢
    exact traces_of_act (.resolve referrer specifier) led
  clearFailures worker :=
    traces_of_act .clearFailures (Worker.IsLaw.clearFailures (S := Leads) worker)
  tasks worker queue slots free graphs :=
    traces_of_eq rfl rfl (Worker.IsLaw.tasks (S := Leads) worker queue slots free graphs)
  forget worker jobs requests :=
    traces_of_eq rfl rfl (Worker.IsLaw.forget (S := Leads) worker jobs requests)

end Worker
end Isolate
