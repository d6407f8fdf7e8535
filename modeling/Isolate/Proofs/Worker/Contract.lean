import Isolate.Proofs.Blueprint.Life
import Isolate.Proofs.Worker.Referenced

/-!
# The paths that stores are asked for

A store may rely on being asked for canonical paths only. The root of a build has a canonical key, and
what a file imports is canonical again as long as there is a directory above the file. A file at the top
has none: what it imports by a relative path is looked for under a relative path.
-/

namespace Isolate

namespace Session

variable {ρ : Type} {session next : Session ρ} {referrer : Origin} {specifier : String} {p : Path}
  {read : Option (Path × Bool)} {result : Option ρ}

/-- The paths that a session knows: those that have a record and those that imports named. -/
def Knows (session : Session ρ) (p : Path) : Prop :=
  p ∈ session.records.map (·.1) ∨ p ∈ session.referenced

theorem knows_refer (session : Session ρ) (path : Path) (h : (session.refer path).Knows p) :
    session.Knows p ∨ p = path := by
  rcases h with known | known
  · exact .inl (.inl known)
  · exact (Path.mem_of_mem_insertSorted known).elim .inr fun known => .inl (.inr known)

theorem knows_register {path : Path} {record : ρ} (h : (session.register path record).Knows p) :
    session.Knows p ∨ p = path := by
  rcases h with known | known
  · rcases List.mem_cons.mp known with rfl | known
    · exact .inr rfl
    · obtain ⟨entry, member, rfl⟩ := List.mem_map.mp known
      exact .inl (.inl (List.mem_map_of_mem (List.mem_of_mem_filter member)))
  · exact .inl (.inr known)

theorem knows_accept {path : Path} {kind : Kind.Supported} {record : ρ}
    (h : (session.accept path kind record).Knows p) : session.Knows p ∨ p = path := by
  apply knows_register
  rw [accept] at h
  split at h <;> exact h

/-- An import makes a session know nothing but the path that it names. -/
theorem Resolves.knows (h : session.Resolves referrer specifier read result next)
    (known : next.Knows p) : session.Knows p ∨ referrer.target specifier = some p := by
  have named {path : Path} (target : referrer.target specifier = some path)
      (h : session.Knows p ∨ p = path) : session.Knows p ∨ referrer.target specifier = some p :=
    h.imp_right fun (same : p = path) => by rw [same, target]
  cases h with
  | unnamed => exact .inl known
  | refused target | reused target | failed target | stopped target =>
    exact named target (session.knows_refer _ known)
  | loaded target =>
    rcases knows_accept known with known | rfl
    · exact named target (session.knows_refer _ known)
    · exact .inr target

/-- The path that an import names is known ever after. -/
theorem Resolves.knows_target (h : session.Resolves referrer specifier read result next)
    (target : referrer.target specifier = some p)
    (canonical : ∀ q ∈ session.referenced, q.normalize = q) : next.Knows p := by
  refine .inr ?_
  rw [h.referenced_eq, target]
  exact (Path.mem_insertSorted (Origin.normalize_of_target target) canonical).mpr (.inl rfl)

end Session

namespace Worker

open Hosted

variable {σ : Type} [Store.Source σ]

def Knows (worker : Worker σ) (p : Path) : Prop :=
  ∃ session, worker.session = some session ∧ session.Knows p

/-- Every path that the session knows is canonical, and so is every path that was read. -/
structure IsCanonical (worker : Worker (Store.Watched σ)) : Prop where
  known : ∀ p, worker.Knows p → p.IsCanonical
  read : ∀ read ∈ worker.store.reads, read.1.IsCanonical

/-- Every unit that imports and has a path has one that the session knows at that moment. -/
def IsLocal (start : Worker (Store.Watched σ)) (deeds : List (Deed σ)) : Prop :=
  ∀ n path specifier, deeds[n]? = some (.resolve (.file path) specifier) →
    (start.state deeds n).Knows path

/-- What the top imports is named by absolute paths. -/
def IsRooted (deeds : List (Deed σ)) : Prop :=
  ∀ specifier target, .resolve (.file .top) specifier ∈ deeds →
    Path.top.resolve specifier.toString = some target → (Path.mk specifier.toString).isAbsolute

variable {start worker : Worker (Store.Watched σ)} {session : Session Nat} {deed : Deed σ}
  {deeds : List (Deed σ)} {path : Path} {n : Nat}

/-- A deed makes a session know nothing but the path that it names, and reads nothing else. -/
theorem knows_act (here : worker.session = some session) (deed : Deed σ) :
    (∀ p, (worker.act deed).Knows p → session.Knows p ∨ deed.target = some p) ∧
      ∀ read ∈ (worker.act deed).store.reads,
        read ∈ worker.store.reads ∨ deed.target = some read.1 := by
  rcases act_cases here deed with ⟨referrer, specifier, rfl⟩ | ⟨_, reads, _, _, left⟩
  · obtain ⟨read, result, next, resolves, left, reads, _⟩ :=
      importModule_resolves here referrer specifier
    constructor
    · rintro p ⟨session', left', known⟩
      obtain rfl : session' = next := Option.some.inj (left'.symm.trans left)
      exact resolves.knows known
    · intro entry member
      rw [act, reads] at member
      refine (List.mem_append.mp member).imp_right fun member => ?_
      obtain rfl := Option.mem_toList.mp member
      exact resolves.target_of_read
  · refine ⟨fun p now => ?_, fun entry member => .inl (reads ▸ member)⟩
    obtain ⟨session', left', known⟩ := now
    obtain rfl := Option.some.inj (left'.symm.trans left)
    exact .inl known

/-- A deed that names no path but a canonical one keeps all paths canonical. -/
theorem IsCanonical.act (h : worker.IsCanonical) (here : worker.session = some session)
    (named : ∀ p, deed.target = some p → p.IsCanonical) : (worker.act deed).IsCanonical := by
  obtain ⟨known, read⟩ := knows_act here deed
  refine ⟨fun p now => ?_, fun entry now => (read entry now).elim (h.read entry) (named entry.1)⟩
  exact (known p now).elim (fun before => h.known p ⟨session, here, before⟩) (named p)

omit [Store.Source σ] in
/-- A unit of a canonical path names canonical paths, unless it is at the top. -/
theorem isCanonical_of_names {worker : Worker (Store.Watched σ)} (canonical : worker.IsCanonical)
    (loc : ∀ path specifier, deed = .resolve (.file path) specifier → worker.Knows path)
    (rooted : IsRooted [deed]) {p : Path} (names : deed.target = some p) : p.IsCanonical := by
  cases deed with
  | resolve referrer specifier =>
    cases referrer with
    | anonymous => contradiction
    | file path =>
      have here := canonical.known path (loc path specifier rfl)
      by_cases top : path = .top
      · subst top
        have absolute := rooted specifier p List.mem_cons_self names
        refine Path.isCanonical_of_normalize_eq ?_ (Path.normalize_of_resolve names)
        exact (Path.isAbsolute_of_resolve_top names).mpr absolute
      · exact Path.isCanonical_of_resolve here top names
  | bind | clearFailures | takeFailure | change => contradiction

/-- A session in which nothing was done but to give the root its record, under the given key. -/
structure IsEntered (start : Worker (Store.Watched σ)) (key : Path) : Prop where
  session : ∃ (session : Session Nat) (record : Nat),
    start.session = some (session.register key record) ∧ session.records = [] ∧
      session.referenced = []
  unread : start.store.reads = []

theorem exists_session_state (here : start.session = some session) (deeds : List (Deed σ)) (n : Nat) :
    ∃ next, (start.state deeds n).session = some next := by
  induction n with
  | zero => exact ⟨session, here⟩
  | succ n ih =>
    obtain ⟨middle, left⟩ := ih
    cases done : deeds[n]? with
    | none => exact ⟨middle, by rw [state_end done, left]⟩
    | some deed =>
      obtain ⟨next, left, _⟩ := referenced_act left deed
      exact ⟨next, by rw [state_succ done, left]⟩

/-- All paths stay canonical as long as the top names absolute paths. -/
theorem isCanonical_state (entered : start.IsEntered path) (canonical : path.IsCanonical)
    (loc : start.IsLocal deeds) (rooted : IsRooted deeds) (n : Nat) :
    (start.state deeds n).IsCanonical := by
  obtain ⟨⟨session, record, here, unknown, unnamed⟩, unread⟩ := entered
  induction n with
  | zero =>
    refine ⟨fun p ⟨session', here', known⟩ => ?_, fun entry member => ?_⟩
    · obtain rfl := Option.some.inj (here'.symm.trans here)
      rcases Session.knows_register known with (known | known) | rfl
      · simp [unknown] at known
      · simp [unnamed] at known
      · exact canonical
    · change entry ∈ start.store.reads at member
      simp [unread] at member
  | succ n ih =>
    cases done : deeds[n]? with
    | none => rwa [state_end done]
    | some deed =>
      obtain ⟨middle, left⟩ := exists_session_state here deeds n
      rw [state_succ done]
      refine ih.act left fun p => isCanonical_of_names ih (fun path specifier same => ?_) ?_
      · exact loc n path specifier (done.trans (congrArg some same))
      · intro specifier target member
        rw [List.mem_singleton] at member
        exact rooted specifier target (member ▸ List.mem_of_getElem? done)

/-- A session keeps every path canonical, those that it reads, those that have a record, those that
imports named and those of the units that import, exactly as long as no unit at the top names a path
that is not absolute. The key of the root is canonical whatever its path is. -/
theorem isCanonical_iff_isRooted {directory : Path} (absolute : directory.isAbsolute) (root : Path)
    (start : Worker (Store.Watched σ)) (entered : start.IsEntered (directory.absolute root))
    (deeds : List (Deed σ)) (loc : start.IsLocal deeds) :
    ((∀ n, (start.state deeds n).IsCanonical) ∧
        ∀ path specifier, .resolve (.file path) specifier ∈ deeds → path.IsCanonical) ↔
      IsRooted deeds := by
  constructor
  · rintro ⟨canonical, _⟩ specifier target member names
    obtain ⟨n, done⟩ := List.mem_iff_getElem?.mp member
    obtain ⟨⟨_, _, here, _⟩, _⟩ := entered
    obtain ⟨session, left⟩ := exists_session_state here deeds n
    obtain ⟨_, _, next, resolves, after, _⟩ :=
      importModule_resolves left (.file .top) specifier
    have named : next.Knows target := resolves.knows_target names fun q known =>
      ((canonical n).known q ⟨session, left, .inr known⟩).normalize_eq
    have reached := (canonical (n + 1)).known target
      ⟨next, by rw [state_succ done]; exact after, named⟩
    exact (Path.isAbsolute_of_resolve_top names).mp reached.isAbsolute
  · intro rooted
    have canonical := isCanonical_state entered (Path.isCanonical_absolute absolute root) loc rooted
    refine ⟨canonical, fun path specifier member => ?_⟩
    obtain ⟨n, done⟩ := List.mem_iff_getElem?.mp member
    exact (canonical n).known path (loc n path specifier done)

/-- A root of a relative path that imports a file with more steps up than there are directories. -/
theorem isCanonical_of_steps_up :
    let start : Worker (Store.Watched Store.Recording) :=
      { world := { objects := #[], scopes := #[] }
        session := some (Session.register { rules := [] } ⟨"/w/index.mjs"⟩ 0)
        store := { store := { inner := {} } } }
    let deeds : List (Deed Store.Recording) :=
      [.resolve (.file ⟨"/w/index.mjs"⟩) (Text.Units.ofString "../../../a/./b.txt")]
    (start.state deeds 1).IsCanonical ∧ deeds.map Deed.target = [some ⟨"/a/b.txt"⟩] := by
  intro start deeds
  have key : Path.absolute ⟨"/w"⟩ ⟨"./x/..//index.mjs"⟩ = ⟨"/w/index.mjs"⟩ := by decide
  have entered : start.IsEntered (Path.absolute ⟨"/w"⟩ ⟨"./x/..//index.mjs"⟩) := by
    rw [key]
    exact ⟨⟨{ rules := [] }, 0, rfl, rfl, rfl⟩, rfl⟩
  have loc : start.IsLocal deeds := by
    intro n path specifier done
    cases n with
    | zero =>
      obtain ⟨rfl, rfl⟩ : _ ∧ _ := by simpa [deeds] using done
      exact ⟨_, rfl, .inl List.mem_cons_self⟩
    | succ n => contradiction
  have rooted : IsRooted deeds := by
    intro specifier target member
    simp [deeds, Path.top] at member
  exact ⟨((isCanonical_iff_isRooted (by decide) _ start entered deeds loc).mpr rooted).1 1, by
    decide +kernel⟩

/-- A root at the top asks the store for a relative path, and the file at the top is not found. -/
theorem read_of_root_at_top :
    let host : Host (Store.Watched Store.Recording) :=
      { session := { rules := (Rules.compile [⟨"Text", ["**/*.txt"]⟩]).toOption.getD [] }
        store := { store := { inner := .ofList [(⟨"/t.txt"⟩, [0x74])] } } }
    let blueprint : Blueprint :=
      { source := "import t from './t.txt'; export default t;", origin := .file ⟨"/"⟩ }
    host.directory.isAbsolute ∧
      (blueprint.buildModule [] host).2.store.reads = [(⟨"t.txt"⟩, false)] ∧
      ¬Path.IsCanonical ⟨"t.txt"⟩ :=
  ⟨by decide, by decide +kernel, fun canonical => absurd canonical.isAbsolute (by decide)⟩

end Worker
end Isolate
