import Isolate.Proofs.Path.Canonical
import Isolate.Proofs.Path.Order
import Isolate.Proofs.Worker.Verdicts
import Isolate.Script.Scanner

/-!
# Places in CommonJS files

A CommonJS file is compiled as the body of a function. All that this does to the place of a character is
to shift it by the head of the function if it is on the first line, and unwrapping takes that back. A
session knows what is to be unwrapped: of the files that it has loaded, those that the rules give as
CommonJS, but for the root.
-/

namespace Isolate

open Script

namespace Script.Scanner

/-- The place of a character of a text. -/
def placeOf (text : List Char) (i : Nat) : Position := ((start text).skip i).position

theorem next_of_end {s : Scanner} {c : Char} {rest : List Char} (text : s.rest = c :: rest)
    (ends : isLineEnd c ∧ ¬(c = '\r' ∧ rest.head? = some '\n')) :
    s.next = ⟨rest, s.offset + 1, ⟨s.position.line + 1, 1⟩⟩ := by
  rw [next, text]
  exact congrArg _ (if_pos ends)

theorem next_of_level {s : Scanner} {c : Char} {rest : List Char} (text : s.rest = c :: rest)
    (level : ¬(isLineEnd c ∧ ¬(c = '\r' ∧ rest.head? = some '\n'))) :
    s.next = ⟨rest, s.offset + 1, ⟨s.position.line, s.position.column + 1⟩⟩ := by
  rw [next, text]
  exact congrArg _ (if_neg level)

/-- A place is shifted on the first line and nowhere else. -/
structure Shifted (n : Nat) (p q : Position) : Prop where
  line : p.line = q.line
  first : 1 ≤ q.line
  left : 1 ≤ q.column
  column : p.column = q.column + if q.line = 1 then n else 0

/-- The next character shifts alike if another one of the shorter text follows it; behind the last one
the longer text might go on with the second half of a line end. -/
theorem Shifted.next {n : Nat} {s t : Scanner} {tail : List Char} (h : Shifted n s.position t.position)
    (same : s.rest = t.rest ++ tail) (more : 1 < t.rest.length) :
    Shifted n s.next.position t.next.position ∧ s.next.rest = t.next.rest ++ tail ∧
      t.next.rest.length = t.rest.length - 1 := by
  obtain ⟨line, first, left, column⟩ := h
  obtain ⟨c, d, rest, text⟩ : ∃ c d rest, t.rest = c :: d :: rest := by
    match t.rest, more with
    | c :: d :: rest, _ => exact ⟨c, d, rest, rfl⟩
  rw [text] at same
  by_cases ends : isLineEnd c ∧ ¬(c = '\r' ∧ (d :: rest).head? = some '\n')
  · rw [next_of_end text ends, next_of_end same ends, text]
    refine ⟨⟨congrArg (· + 1) line, Nat.le_add_left _ _, Nat.le_refl _, ?_⟩, rfl, rfl⟩
    have below : t.position.line + 1 ≠ 1 := by omega
    dsimp only
    rw [if_neg below]
  · rw [next_of_level text ends, next_of_level same ends, text]
    refine ⟨⟨line, first, Nat.le_add_left _ _, ?_⟩, rfl, rfl⟩
    dsimp only
    rw [column]
    omega

theorem Shifted.skip {n : Nat} {tail : List Char} (i : Nat) {s t : Scanner}
    (h : Shifted n s.position t.position) (same : s.rest = t.rest ++ tail) (more : i < t.rest.length) :
    Shifted n (skip i s).position (skip i t).position := by
  induction i generalizing s t with
  | zero => exact h
  | succ i ih =>
    obtain ⟨shifted, same, fewer⟩ := h.next same (by omega)
    exact ih shifted same (by omega)

end Script.Scanner

namespace Wrapper

theorem unwrap_first (label : String) (column : Nat) :
    unwrap ⟨label, some 1, some column⟩ = ⟨label, some 1, some (max 1 (column - head.length))⟩ := rfl

/-- Off the first line, or without a column, a location stays as it is. -/
theorem unwrap_of_kept {location : Location}
    (kept : location.line ≠ some 1 ∨ location.column = none) : unwrap location = location := by
  unfold unwrap
  split
  next first found =>
    rcases kept with below | bare
    · exact absurd first below
    · rw [bare] at found
      contradiction
  next => rfl

theorem unwrap_below (label : String) {line : Nat} (below : line ≠ 1) (column : Nat) :
    unwrap ⟨label, some line, some column⟩ = ⟨label, some line, some column⟩ :=
  unwrap_of_kept (.inl fun first => below (Option.some.inj first))

end Wrapper

/-- The files of a session that are to be unwrapped are those that were loaded as CommonJS, which the
root of a build never is. -/
structure Session.Wraps (root : Option Path) (session : Session Nat) : Prop where
  /-- A path with a record is the key of the file. -/
  keys : ∀ entry ∈ session.records, entry.1.normalize = entry.1
  entered : ∀ r, root = some r → r.normalize = r ∧ (session.record? r).isSome
  isIn : ∀ p : Path, p.normalize = p →
    (p.isIn session.wrapped ↔ (session.record? p).isSome ∧
      session.rules.classify p = some (.supported .commonJS) ∧ ∀ r, root = some r → ¬r.same p)

namespace Session.Wraps

variable {root : Option Path} {session : Session Nat} {path : Path}

/-- A file that is loaded is to be unwrapped if it is a CommonJS file by the rules. -/
theorem accept (h : session.Wraps root) (key : path.normalize = path)
    (unknown : session.record? path = none) {kind : Kind.Supported}
    (classified : session.rules.classify path = some (.supported kind)) (record : Nat) :
    (session.accept path kind record).Wraps root := by
  have rules : (session.accept path kind record).rules = session.rules := by
    rw [Session.accept]
    split <;> rfl
  have records : (session.accept path kind record).records =
      (path, record) :: session.records.filter (!·.1.same path) := by
    rw [Session.accept]
    split <;> rfl
  have wrapped (p : Path) : p.isIn (session.accept path kind record).wrapped ↔
      kind = .commonJS ∧ p.same path ∨ p.isIn session.wrapped := by
    rw [Session.accept]
    split
    next common =>
      rw [Path.isIn_insertSorted]
      simp [common, Session.register]
    next other => simp [other, Session.register]
  -- The root has a record from the start, so no path without one is the root's.
  have apart (r : Path) (entry : root = some r) : ¬r.same path := fun same => by
    have known := (h.entered r entry).2
    rw [Session.record?_same same, unknown] at known
    contradiction
  refine ⟨fun entry member => ?_, fun r entry => ?_, fun p normal => ?_⟩
  · rw [records] at member
    rcases List.mem_cons.mp member with rfl | member
    · exact key
    · exact h.keys entry (List.mem_filter.mp member).1
  · refine ⟨(h.entered r entry).1, ?_⟩
    rw [Session.record?_accept]
    split
    · rfl
    · exact (h.entered r entry).2
  · rw [wrapped, h.isIn p normal, rules, Session.record?_accept]
    by_cases same : path.same p
    · obtain rfl := Path.eq_of_same key normal same
      simp only [unknown, classified, Path.same_self, if_true, Option.isSome_some,
        Option.isSome_none, Bool.false_eq_true, false_and, or_false, and_true, true_and,
        Option.some.injEq, Kind.supported.injEq]
      exact ⟨fun common => ⟨common, apart⟩, fun loaded => loaded.1⟩
    · have other : ¬p.same path := by rwa [Path.same_comm]
      rw [if_neg same]
      simp [other]

/-- Whatever is done to a session, it knows what is to be unwrapped. -/
instance : Session.IsLaw fun session next : Session Nat =>
    session.Wraps root → next.Wraps root where
  refl _ := id
  trans _ _ _ earlier later := later ∘ earlier
  refer _ _ h := ⟨h.keys, h.entered, h.isIn⟩
  attempt _ _ h := ⟨h.keys, h.entered, h.isIn⟩
  accept _ _ _ record named unknown classified h := by
    obtain ⟨referrer, specifier, target⟩ := named
    cases referrer with
    | anonymous => contradiction
    | file referrer => exact h.accept (Path.normalize_of_resolve target) unknown classified record
  fail _ _ _ h := ⟨h.keys, h.entered, h.isIn⟩
  clearFailures _ h := ⟨h.keys, h.entered, h.isIn⟩

/-- A session without records has nothing to unwrap when its root is entered. -/
theorem enter (fresh : session.records = []) (bare : session.wrapped = []) {origin : Origin}
    (key : ∀ path, origin = .file path → path.normalize = path) (record : Nat) :
    (session.enter origin record).Wraps origin.path? := by
  have unknown (p : Path) : session.record? p = none := by
    rw [Session.record?, fresh]
    rfl
  cases origin with
  | anonymous =>
    refine ⟨fun entry member => ?_, fun r clash => ?_, fun p _ => ?_⟩
    · rw [Session.enter, fresh] at member
      contradiction
    · contradiction
    · rw [Session.enter, bare, unknown]
      simp [Path.isIn]
  | file path =>
    refine ⟨fun entry member => ?_, fun r same => ?_, fun p _ => ?_⟩
    · rw [Session.enter, Session.register, fresh] at member
      rw [List.mem_singleton.mp member]
      exact key path rfl
    · obtain rfl := Option.some.inj same
      refine ⟨key path rfl, ?_⟩
      rw [Session.enter, Session.record?_register, if_pos Path.same_self]
      rfl
    · rw [Session.enter, Session.record?_register, Session.register, bare, unknown]
      by_cases same : path.same p
      · simp [Path.isIn, Origin.path?, same]
      · simp [Path.isIn, same]

end Session.Wraps

/-- The place in a file of a place in what was compiled of it. -/
def Rules.placeIn (rules : Rules) (root : Option Path) (path : Path) (place : Position) : Location :=
  if rules.classify path = some (.supported .commonJS) ∧ root ≠ some path ∧ place.line = 1 then
    ⟨path.text, some 1, some (max 1 (place.column - Wrapper.head.length))⟩
  else ⟨path.text, some place.line, some place.column⟩

theorem Rules.placeIn_of_commonJs {rules : Rules} {root : Option Path} {path : Path}
    (common : rules.classify path = some (.supported .commonJS)) (other : root ≠ some path)
    (place : Position) :
    rules.placeIn root path place =
      Wrapper.unwrap ⟨path.text, some place.line, some place.column⟩ := by
  rw [placeIn]
  by_cases first : place.line = 1
  · rw [if_pos ⟨common, other, first⟩, first, Wrapper.unwrap_first]
  · rw [if_neg fun all => first all.2.2, Wrapper.unwrap_below _ first]

/-- A location in the coordinates of the file. -/
def Session.unwrapLocation {ρ : Type} (session : Session ρ) (location : Location) : Location :=
  if Path.isIn ⟨location.label⟩ session.wrapped then Wrapper.unwrap location else location

/-- A place in what was compiled of a loaded file is unwrapped to the place in the file. -/
theorem Session.Wraps.unwrapLocation {root : Option Path} {session : Session Nat}
    (h : session.Wraps root) {path : Path}
    (loaded : path ∈ session.records.map (·.1)) (place : Position) :
    session.unwrapLocation ⟨path.text, some place.line, some place.column⟩ =
      session.rules.placeIn root path place := by
  obtain ⟨entry, member, rfl⟩ := List.mem_map.mp loaded
  have key := h.keys entry member
  have known : (session.record? entry.1).isSome := by
    rw [record?, Option.isSome_map, List.find?_isSome]
    exact ⟨entry, member, Path.same_self⟩
  have apart : (∀ r, root = some r → ¬r.same entry.1) ↔ root ≠ some entry.1 := by
    refine ⟨fun apart same => apart _ same Path.same_self, fun other r entered same => other ?_⟩
    rw [entered, Path.eq_of_same (h.entered r entered).1 key same]
  have wrapped := h.isIn entry.1 key
  rw [apart] at wrapped
  rw [Session.unwrapLocation]
  by_cases common : session.rules.classify entry.1 = some (.supported .commonJS) ∧ root ≠ some entry.1
  · rw [if_pos (wrapped.mpr ⟨known, common⟩), Rules.placeIn_of_commonJs common.1 common.2]
  · rw [if_neg fun loaded => common (wrapped.mp loaded).2, Rules.placeIn,
      if_neg fun first => common ⟨first.1, first.2.1⟩]

end Isolate
