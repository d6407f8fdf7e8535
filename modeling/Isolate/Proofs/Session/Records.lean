import Isolate.Session

/-!
# The records of a session

A record is found under every spelling of its path. Resolving an import adds a record only for a path
that has none, and nothing else touches the records, so that what was found once is found ever after.
-/

namespace Isolate

namespace Path

variable {p q r : Path}

theorem same_iff : p.same q ↔ p.components = q.components := by simp [same]

@[simp] theorem same_self : p.same p := same_iff.mpr rfl

theorem same_comm : p.same q = q.same p := by
  rw [Bool.eq_iff_iff, same_iff, same_iff, eq_comm]

/-- Spellings of one path are the same as the same paths. -/
theorem same_congr (h : p.same q) (r : Path) : r.same p = r.same q := by
  rw [same, same, same_iff.mp h]

end Path

/-- The path that a specifier names in a unit. -/
def Origin.target (referrer : Origin) (specifier : String) : Option Path :=
  match referrer with
  | .anonymous => none
  | .file path => path.resolve specifier

namespace Session

variable {ρ : Type} {session next : Session ρ} {referrer : Origin} {specifier : String} {p q : Path}
  {record other : ρ}

/-- A record is found under every spelling of its path. -/
theorem record?_same (h : p.same q) : session.record? p = session.record? q := by
  simp only [record?, Path.same_congr h]

theorem record?_register :
    (session.register q record).record? p =
      if q.same p then some record else session.record? p := by
  simp only [record?, register, List.find?_cons]
  split
  next same => simp [same]
  next other =>
    rw [List.find?_filter, if_neg (by simpa using other)]
    congr 2
    funext entry
    cases same : entry.1.same p with
    | false => simp
    | true =>
      have apart : q.same entry.1 = false := by rw [Path.same_congr same, other]
      rw [Path.same_comm]
      simp [apart]

theorem record?_accept (kind : Kind.Supported) :
    (session.accept q kind record).record? p =
      if q.same p then some record else session.record? p := by
  rw [← record?_register, accept]
  split <;> rfl

@[simp] theorem record?_refer : (session.refer q).record? p = session.record? p := rfl

@[simp] theorem record?_beginLoad : (session.beginLoad q).record? p = session.record? p := rfl

@[simp] theorem record?_endLoad : (session.endLoad q).record? p = session.record? p := rfl

@[simp] theorem record?_fail (error : Error) :
    (session.fail error).record? p = session.record? p := rfl

@[simp] theorem record?_clearFailures : session.clearFailures.record? p = session.record? p := rfl

@[simp] theorem record?_takeFailure (text : List Char) (fallback : Bool) :
    (session.takeFailure text fallback).2.record? p = session.record? p := by
  rw [takeFailure]
  split <;> rfl

theorem eq_of_bind (h : session.bind = .ok next) : next = { session with isBound := true } := by
  unfold bind at h
  split at h
  · contradiction
  · exact (Except.ok.inj h).symm

theorem record?_bind (h : session.bind = .ok next) : next.record? p = session.record? p := by
  rw [eq_of_bind h]
  rfl

theorem isBound_of_bind (h : session.bind = .ok next) : next.isBound := by
  rw [eq_of_bind h]

theorem bind_of_isBound (h : session.isBound) : session.bind = .error .linkerReused := if_pos h

/-- The session with the root of a build, under its own path if it comes from a file. -/
def enter (session : Session ρ) (origin : Origin) (root : ρ) : Session ρ :=
  match origin with
  | .anonymous => session
  | .file path => session.register path root

theorem enter_isBound (origin : Origin) (root : ρ) :
    (session.enter origin root).isBound = session.isBound := by
  cases origin <;> rfl

theorem plan_of_target (session : Session ρ) (h : referrer.target specifier = some p) :
    session.plan referrer specifier = (session.planPath p, session.refer p) := by
  cases referrer with
  | anonymous => contradiction
  | file path =>
    change path.resolve specifier = some p at h
    simp [plan, h]

theorem plan_of_unnamed (session : Session ρ) (h : referrer.target specifier = none) :
    ∃ error, session.plan referrer specifier = (.refuse error, session) := by
  cases referrer with
  | anonymous => exact ⟨_, rfl⟩
  | file path =>
    change path.resolve specifier = none at h
    exact ⟨.unresolvableSpecifier specifier path.text, by simp only [plan, h]⟩

theorem planPath_of_known (known : session.record? p = some record) :
    session.planPath p = .reuse record := by
  rw [planPath, known]

/-- A path without a record is refused, or read and loaded as the kind that the rules give it. -/
theorem planPath_of_unknown (unknown : session.record? p = none) :
    (∃ error, session.planPath p = .refuse error) ∨
      ∃ kind, session.rules.classify p = some (.supported kind) ∧
        session.planPath p = .load p kind := by
  rw [planPath, unknown]
  cases session.rules.classify p with
  | none => exact .inl ⟨_, rfl⟩
  | some kind =>
    cases kind with
    | unsupported name => exact .inl ⟨_, rfl⟩
    | supported kind => exact .inr ⟨kind, rfl, rfl⟩

/-- All that resolving an import can do to a session. The indices are the path that is read, if any,
and whether it can be read; the record that the import comes to, if any; and the session after it. -/
inductive Resolves (session : Session ρ) (referrer : Origin) (specifier : String) :
    Option (Path × Bool) → Option ρ → Session ρ → Prop where
  | unnamed (unnamed : referrer.target specifier = none) (error : Error) :
      Resolves session referrer specifier none none (session.fail error)
  /-- The rules give the path no kind that can be loaded. -/
  | refused {path : Path} (target : referrer.target specifier = some path)
      (unknown : session.record? path = none) (error : Error) :
      Resolves session referrer specifier none none ((session.refer path).fail error)
  | reused {path : Path} {record : ρ} (target : referrer.target specifier = some path)
      (known : session.record? path = some record) :
      Resolves session referrer specifier none (some record) (session.refer path)
  /-- The file cannot be read, or its loader fails. -/
  | failed {path : Path} {kind : Kind.Supported} (target : referrer.target specifier = some path)
      (unknown : session.record? path = none)
      (classified : session.rules.classify path = some (.supported kind)) (readable : Bool)
      (error : Error) :
      Resolves session referrer specifier (some (path, readable)) none
        ((((session.refer path).beginLoad path).endLoad path).fail error)
  /-- The loader ends in a way that nothing goes on from. -/
  | stopped {path : Path} {kind : Kind.Supported} (target : referrer.target specifier = some path)
      (unknown : session.record? path = none)
      (classified : session.rules.classify path = some (.supported kind)) :
      Resolves session referrer specifier (some (path, true)) none
        ((session.refer path).beginLoad path)
  | loaded {path : Path} {kind : Kind.Supported} (target : referrer.target specifier = some path)
      (unknown : session.record? path = none)
      (classified : session.rules.classify path = some (.supported kind)) (record : ρ) :
      Resolves session referrer specifier (some (path, true)) (some record)
        ((((session.refer path).beginLoad path).endLoad path).accept path kind record)

variable {read : Option (Path × Bool)} {result : Option ρ}

/-- Resolving an import keeps every record. -/
theorem Resolves.keeps_record (h : session.Resolves referrer specifier read result next)
    (known : session.record? p = some record) : next.record? p = some record := by
  cases h with
  | unnamed | refused | reused | failed | stopped => simpa using known
  | @loaded path kind target unknown classified added =>
    have apart : ¬path.same p := by
      intro same
      rw [record?_same same, known] at unknown
      contradiction
    rw [record?_accept, if_neg apart]
    simpa using known

/-- What an import comes to is the record of its path from then on. -/
theorem Resolves.record?_of_result
    (h : session.Resolves referrer specifier read (some record) next)
    (target : referrer.target specifier = some p) : next.record? p = some record := by
  cases h with
  | reused here known =>
    rw [here, Option.some.injEq] at target
    rw [record?_refer, ← target, known]
  | loaded here =>
    rw [here, Option.some.injEq] at target
    rw [record?_accept, target, if_pos Path.same_self]

/-- Only a path without a record is read. -/
theorem Resolves.unknown_of_read {readable : Bool}
    (h : session.Resolves referrer specifier (some (p, readable)) result next) :
    session.record? p = none := by
  cases h with
  | failed _ unknown | stopped _ unknown | loaded _ unknown => exact unknown

theorem Resolves.isBound_eq (h : session.Resolves referrer specifier read result next) :
    next.isBound = session.isBound := by
  cases h with
  | unnamed | refused | reused | failed | stopped => rfl
  | loaded =>
    rw [accept]
    split <;> rfl

theorem Resolves.target_of_read {readable : Bool}
    (h : session.Resolves referrer specifier (some (p, readable)) result next) :
    referrer.target specifier = some p := by
  cases h with
  | failed target | stopped target | loaded target => exact target

end Session
end Isolate
