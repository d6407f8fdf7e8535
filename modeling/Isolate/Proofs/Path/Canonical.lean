import Isolate.Path.Specifier
import Mathlib.Data.List.Basic

/-!
# Where a walk ends

Walking components leaves no `.`, and `..` only at the beginning of a relative path. What a walk leaves
is read back from its written form, so that the canonical form of a canonical path is the path itself,
and two canonical paths that name the same thing are one text.
-/

namespace Isolate

namespace Text

theorem splitAtChar_ne_nil (c : Char) (text : List Char) : splitAtChar c text ≠ [] := by
  cases text with
  | nil => simp [splitAtChar]
  | cons d rest =>
    rw [splitAtChar]
    split
    · simp
    · split <;> simp

theorem not_mem_of_mem_splitAtChar {c : Char} {text piece : List Char}
    (h : piece ∈ splitAtChar c text) : c ∉ piece := by
  induction text generalizing piece with
  | nil =>
    obtain rfl : piece = [] := by simpa [splitAtChar] using h
    exact List.not_mem_nil
  | cons d rest ih =>
    rw [splitAtChar] at h
    split at h
    next =>
      rcases List.mem_cons.mp h with rfl | h
      · exact List.not_mem_nil
      · exact ih h
    next apart =>
      split at h
      next nothing => exact absurd nothing (splitAtChar_ne_nil c rest)
      next first pieces split =>
        rw [split] at ih
        rcases List.mem_cons.mp h with rfl | h
        · simpa [Ne.symm apart] using ih List.mem_cons_self
        · exact ih (List.mem_cons_of_mem _ h)

/-- What stands in front of a separator and what stands behind it are split apart. -/
theorem splitAtChar_append_cons (c : Char) (front back : List Char) :
    splitAtChar c (front ++ c :: back) = splitAtChar c front ++ splitAtChar c back := by
  induction front with
  | nil => simp [splitAtChar]
  | cons d front ih =>
    rw [List.cons_append, splitAtChar, splitAtChar, ih]
    split
    · rfl
    · cases pieces : splitAtChar c front with
      | nil => exact absurd pieces (splitAtChar_ne_nil c front)
      | cons piece pieces => rfl

theorem splitAtChar_of_not_mem {c : Char} {piece : List Char} (h : c ∉ piece) :
    splitAtChar c piece = [piece] := by
  induction piece with
  | nil => rfl
  | cons d piece ih =>
    obtain ⟨apart, h⟩ := not_or.mp (mt List.mem_cons.mpr h)
    rw [splitAtChar, if_neg (Ne.symm apart), ih h]

/-- A piece in front of a separator is split off. -/
theorem splitAtChar_append {c : Char} {piece : List Char} (h : c ∉ piece) (rest : List Char) :
    splitAtChar c (piece ++ c :: rest) = piece :: splitAtChar c rest := by
  rw [splitAtChar_append_cons, splitAtChar_of_not_mem h, List.singleton_append]

end Text

namespace Path

/-- A component that is read back from its own characters inside a path. -/
def Component.IsInner (c : Component) : Prop := '/' ∉ c.toList ∧ ofPiece? c.toList = some c

/-- A component that a walk takes after the first one. -/
def Component.IsStep (c : Component) : Prop := c = .current ∨ c.IsInner

theorem Component.toList_of_ofPiece? {piece : List Char} {c : Component}
    (h : ofPiece? piece = some c) : c.toList = piece := by
  unfold ofPiece? at h
  split at h
  · contradiction
  · split at h
    next parent => rw [parent, ← Option.some.inj h, toList]
    next => rw [← Option.some.inj h, toList, String.toList_ofList]

theorem Component.isInner_of_ofPiece? {piece : List Char} {c : Component}
    (slashless : '/' ∉ piece) (h : ofPiece? piece = some c) : c.IsInner := by
  rw [IsInner, toList_of_ofPiece? h]
  exact ⟨slashless, h⟩

theorem Component.IsInner.ne_root {c : Component} (h : c.IsInner) : c ≠ .root := by
  rintro rfl
  exact h.1 List.mem_cons_self

theorem Component.IsInner.ne_current {c : Component} (h : c.IsInner) : c ≠ .current := by
  rintro rfl
  have read := h.2
  simp [toList, ofPiece?] at read

/-- The characters of a component inside a path are neither none nor a single dot. -/
theorem Component.IsInner.toList_ne {c : Component} (h : c.IsInner) :
    c.toList ≠ [] ∧ c.toList ≠ ['.'] := by
  constructor
  all_goals
    intro nothing
    have read := h.2
    rw [nothing] at read
    simp [ofPiece?] at read

theorem isInner_of_mem_filterMap {text : List Char} {c : Component} {pieces : List (List Char)}
    (split : ∀ piece ∈ pieces, piece ∈ Text.splitAtChar '/' text)
    (h : c ∈ pieces.filterMap Component.ofPiece?) : c.IsInner := by
  obtain ⟨piece, member, read⟩ := List.mem_filterMap.mp h
  exact Component.isInner_of_ofPiece? (Text.not_mem_of_mem_splitAtChar (split piece member)) read

/-- Components as they are read from a path: the first one may be the root, which it is exactly in an
absolute path. -/
theorem components_cases (path : Path) :
    (path.isAbsolute ∧ ∃ rest, path.components = .root :: rest ∧ ∀ c ∈ rest, c.IsInner) ∨
      ¬path.isAbsolute ∧ ∀ c ∈ path.components, c.IsStep := by
  have pieces := Text.splitAtChar_ne_nil '/' path.text.toList
  rw [isAbsolute, components, componentsOf]
  cases text : path.text.toList with
  | nil => simp [Text.splitAtChar]
  | cons d chars =>
    by_cases absolute : d = '/'
    · refine .inl ⟨by simp [absolute], ?_⟩
      rw [Text.splitAtChar, if_pos absolute]
      have some := Text.splitAtChar_ne_nil '/' chars
      refine ⟨_, ?_, fun c => @isInner_of_mem_filterMap chars c _ fun _ => id⟩
      simp [some]
    · refine .inr ⟨by simp [absolute], fun c member => ?_⟩
      cases split : Text.splitAtChar '/' (d :: chars) with
      | nil => simp [split] at member
      | cons first rest =>
        have inner (piece : List Char) (h : piece ∈ first :: rest) :
            piece ∈ Text.splitAtChar '/' (d :: chars) := by rwa [split]
        rw [split] at member
        have begun : first.isEmpty = false := by
          rw [Text.splitAtChar, if_neg absolute] at split
          cases again : Text.splitAtChar '/' chars with
          | nil => exact absurd again (Text.splitAtChar_ne_nil '/' chars)
          | cons piece pieces =>
            rw [again] at split
            rw [← (List.cons.inj split).1]
            rfl
        simp only [begun, Bool.false_eq_true, if_false] at member
        split at member
        · rcases List.mem_cons.mp member with rfl | member
          · exact .inl rfl
          · exact .inr (isInner_of_mem_filterMap (fun p h => inner p (List.mem_cons_of_mem _ h)) member)
        · rcases List.mem_append.mp member with member | member
          · rw [Option.mem_toList] at member
            exact .inr (Component.isInner_of_ofPiece?
              (Text.not_mem_of_mem_splitAtChar (inner first List.mem_cons_self)) member)
          · exact .inr (isInner_of_mem_filterMap (fun p h => inner p (List.mem_cons_of_mem _ h)) member)

/-- Where a walk can be, its last component first: at names below the root or below steps up. -/
inductive Walked : List Component → Prop
  | up (n : Nat) : Walked (List.replicate n .parent)
  | root : Walked [.root]
  | down {name : String} {walked : List Component} (before : Walked walked)
      (inner : (Component.normal name).IsInner) : Walked (.normal name :: walked)

theorem Walked.step {walked : List Component} (h : Walked walked) {c : Component} (next : c.IsStep) :
    Walked (Path.step walked c) := by
  cases c with
  | root => exact absurd rfl (next.resolve_left nofun).ne_root
  | current => exact h
  | normal name => exact h.down (next.resolve_left nofun)
  | parent =>
    cases h with
    | up n =>
      cases n with
      | zero => exact .up 1
      | succ n => exact .up (n + 2)
    | root => exact .root
    | down before _ => exact before

theorem Walked.foldl {walked components : List Component} (h : Walked walked)
    (steps : ∀ c ∈ components, c.IsStep) : Walked (components.foldl Path.step walked) := by
  induction components generalizing walked with
  | nil => exact h
  | cons c rest ih =>
    exact ih (h.step (steps c List.mem_cons_self)) fun d member =>
      steps d (List.mem_cons_of_mem _ member)

theorem walked_walk {components : List Component} (steps : ∀ c ∈ components, c.IsStep) :
    Walked (walk components).reverse := by
  rw [walk, List.reverse_reverse]
  exact Walked.foldl (.up 0) steps

theorem walked_walk_root {components : List Component} (steps : ∀ c ∈ components, c.IsStep) :
    Walked (walk (.root :: components)).reverse := by
  rw [walk, List.reverse_reverse]
  exact Walked.root.foldl steps

/-- A walk to a place that a walk can be at goes straight there. -/
theorem Walked.foldl_reverse {walked : List Component} (h : Walked walked) :
    walked.reverse.foldl Path.step [] = walked := by
  induction h with
  | up n =>
    rw [List.reverse_replicate]
    induction n with
    | zero => rfl
    | succ n ih =>
      rw [List.replicate_succ', List.foldl_append, ih, ← List.replicate_succ', List.replicate_succ]
      cases n <;> rfl
  | root => rfl
  | down _ _ ih => rw [List.reverse_cons, List.foldl_append, ih]; rfl

/-- Apart from a root in front, where a walk ends every component is read back from its characters. -/
theorem Walked.reverse_cases {walked : List Component} (h : Walked walked) :
    (∃ names, walked.reverse = .root :: names ∧ ∀ c ∈ names, c.IsInner ∧ c ≠ .parent) ∨
      ∀ c ∈ walked.reverse, c.IsInner := by
  induction h with
  | up n =>
    refine .inr fun c member => ?_
    rw [List.reverse_replicate] at member
    rw [List.eq_of_mem_replicate member]
    exact ⟨by decide, by decide⟩
  | root => exact .inl ⟨[], rfl, by simp⟩
  | @down name walked _ inner ih =>
    rw [List.reverse_cons]
    rcases ih with ⟨names, same, plain⟩ | plain
    · refine .inl ⟨names ++ [.normal name], by rw [same]; rfl, fun c member => ?_⟩
      rcases List.mem_append.mp member with member | member
      · exact plain c member
      · rw [List.mem_singleton.mp member]
        exact ⟨inner, nofun⟩
    · refine .inr fun c member => ?_
      rcases List.mem_append.mp member with member | member
      · exact plain c member
      · rwa [List.mem_singleton.mp member]

theorem splitAtChar_writeRelative {components : List Component} (some : components ≠ [])
    (inner : ∀ c ∈ components, c.IsInner) :
    Text.splitAtChar '/' (writeRelative components) = components.map Component.toList := by
  induction components with
  | nil => contradiction
  | cons c rest ih =>
    have slashless := (inner c List.mem_cons_self).1
    cases rest with
    | nil => exact Text.splitAtChar_of_not_mem slashless
    | cons d rest =>
      rw [writeRelative, Text.splitAtChar_append slashless,
        ih nofun fun e member => inner e (List.mem_cons_of_mem _ member)]
      · rfl
      · nofun

theorem filterMap_ofPiece?_toList {components : List Component}
    (inner : ∀ c ∈ components, c.IsInner) :
    (components.map Component.toList).filterMap Component.ofPiece? = components := by
  rw [List.filterMap_map]
  refine (List.filterMap_congr (g := some) fun c member => (inner c member).2).trans ?_
  exact List.filterMap_some

theorem componentsOf_write {walked : List Component} (h : Walked walked) :
    componentsOf (write walked.reverse) = walked.reverse := by
  rcases h.reverse_cases with ⟨names, same, plain⟩ | inner
  · rw [same, write, componentsOf, Text.splitAtChar, if_pos rfl]
    cases names with
    | nil => rfl
    | cons c rest =>
      rw [splitAtChar_writeRelative (List.cons_ne_nil c rest) fun d member => (plain d member).1]
      simp only [List.isEmpty_nil, if_true, List.map_cons, List.isEmpty_cons, Bool.false_eq_true,
        if_false]
      rw [← List.map_cons, filterMap_ofPiece?_toList fun d member => (plain d member).1]
  · cases same : walked.reverse with
    | nil => rfl
    | cons c rest =>
      rw [same] at inner
      have plain := inner c List.mem_cons_self
      have relative : write (c :: rest) = writeRelative (c :: rest) := by
        cases c with
        | root => exact absurd rfl plain.ne_root
        | _ => rfl
      rw [relative, componentsOf, splitAtChar_writeRelative (List.cons_ne_nil c rest) inner]
      simp only [List.map_cons, List.isEmpty_iff, plain.toList_ne.1, plain.toList_ne.2, if_false,
        plain.2, Option.toList_some, List.singleton_append]
      rw [filterMap_ofPiece?_toList fun d member => inner d (List.mem_cons_of_mem _ member)]

theorem components_ofComponents {walked : List Component} (h : Walked walked) :
    (ofComponents walked.reverse).components = walked.reverse := by
  rw [ofComponents, components, String.toList_ofList, componentsOf_write h]

/-- A path written from the components where a walk ends. -/
def IsReached (p : Path) : Prop := ∃ walked, Walked walked ∧ p = ofComponents walked.reverse

theorem isReached_of_walked {components : List Component} (h : Walked components.reverse) :
    (ofComponents components).IsReached :=
  ⟨components.reverse, h, by rw [List.reverse_reverse]⟩

theorem isReached_normalize (p : Path) : p.normalize.IsReached := by
  apply isReached_of_walked
  rcases p.components_cases with ⟨_, rest, same, inner⟩ | ⟨_, steps⟩
  · rw [same]
    exact walked_walk_root fun c member => .inr (inner c member)
  · exact walked_walk steps

theorem IsReached.normalize_eq {p : Path} (h : p.IsReached) : p.normalize = p := by
  obtain ⟨walked, ends, rfl⟩ := h
  rw [normalize, components_ofComponents ends, walk, ends.foldl_reverse]

/-- The canonical form of a canonical form is itself. -/
@[simp] theorem normalize_normalize (p : Path) : p.normalize.normalize = p.normalize :=
  p.isReached_normalize.normalize_eq

theorem isReached_iff {p : Path} : p.IsReached ↔ p.normalize = p :=
  ⟨IsReached.normalize_eq, fun same => same ▸ p.isReached_normalize⟩

/-- Two canonical forms of the same thing are one text. -/
theorem eq_of_same {p q : Path} (hp : p.normalize = p) (hq : q.normalize = q) (h : p.same q) :
    p = q := by
  rw [← hp, ← hq, normalize, normalize, beq_iff_eq.mp h]

/-- The components in front of the last one are the root and steps below it, or steps alone. -/
theorem directoryOf_cases (p : Path) :
    (∃ rest, directoryOf p.components = .root :: rest ∧ ∀ c ∈ rest, c.IsStep) ∨
      ∀ c ∈ directoryOf p.components, c.IsStep := by
  rcases p.components_cases with ⟨_, rest, same, inner⟩ | ⟨_, steps⟩
  · rw [same, directoryOf]
    cases rest with
    | nil => exact .inr (by simp)
    | cons c rest =>
      exact .inl ⟨(c :: rest).dropLast, rfl, fun d member =>
        .inr (inner d (List.dropLast_subset _ member))⟩
  · exact .inr fun c member => steps c (List.dropLast_subset _ member)

/-- What a specifier names is canonical, whoever imports it. -/
theorem normalize_of_resolve {referrer target : Path} {specifier : String}
    (h : referrer.resolve specifier = some target) : target.normalize = target := by
  rw [resolve] at h
  split at h
  · contradiction
  · dsimp only at h
    split at h
    · rw [← Option.some.inj h, normalize_normalize]
    next relative =>
      rw [← Option.some.inj h]
      apply IsReached.normalize_eq
      apply isReached_of_walked
      have target : ∀ c ∈ (Path.mk specifier).components, c.IsStep :=
        (components_cases ⟨specifier⟩).elim (fun h => absurd h.1 relative) (·.2)
      rcases referrer.directoryOf_cases with ⟨rest, same, steps⟩ | steps
      · rw [same]
        exact walked_walk_root fun c member => (List.mem_append.mp member).elim (steps c) (target c)
      · exact walked_walk fun c member => (List.mem_append.mp member).elim (steps c) (target c)

theorem isAbsolute_iff {p : Path} : p.isAbsolute ↔ p.components.head? = some .root := by
  rcases p.components_cases with ⟨absolute, rest, same, _⟩ | ⟨relative, steps⟩
  · simp [absolute, same]
  · refine iff_of_false relative fun h => ?_
    rcases steps .root (List.mem_of_mem_head? h) with h | h
    · contradiction
    · exact h.ne_root rfl

/-- A path that stores may be asked for: absolute, without steps that go nowhere or back, and its own
canonical form. -/
structure IsCanonical (p : Path) : Prop where
  isAbsolute : p.isAbsolute
  plain : ∀ c ∈ p.components, c ≠ .current ∧ c ≠ .parent
  normalize_eq : p.normalize = p

/-- Of an absolute path, being its own canonical form says it all. -/
theorem isCanonical_of_normalize_eq {p : Path} (absolute : p.isAbsolute) (h : p.normalize = p) :
    p.IsCanonical := by
  refine ⟨absolute, fun c member => ?_, h⟩
  obtain ⟨walked, ends, same⟩ := isReached_iff.mpr h
  rw [isAbsolute_iff] at absolute
  rw [same, components_ofComponents ends] at absolute member
  rcases ends.reverse_cases with ⟨names, begun, plain⟩ | inner
  · rw [begun] at member
    rcases List.mem_cons.mp member with rfl | member
    · exact ⟨nofun, nofun⟩
    · exact ⟨(plain c member).1.ne_current, (plain c member).2⟩
  · exact absurd rfl (inner .root (List.mem_of_mem_head? absolute)).ne_root

/-- A walk that starts at the root stays below it. -/
theorem head?_walk_root {components : List Component} (steps : ∀ c ∈ components, c.IsStep) :
    (walk (.root :: components)).head? = some .root := by
  suffices h : ∀ walked : List Component, walked.getLast? = some .root →
      (components.foldl step walked).getLast? = some .root by
    rw [walk, List.head?_reverse]
    exact h [.root] rfl
  intro walked last
  induction components generalizing walked with
  | nil => exact last
  | cons c rest ih =>
    refine ih (fun d member => steps d (List.mem_cons_of_mem _ member)) _ ?_
    have next := steps c List.mem_cons_self
    cases c with
    | root => exact absurd rfl (next.resolve_left nofun).ne_root
    | current => exact last
    | normal name =>
      cases walked with
      | nil => contradiction
      | cons d walked => exact List.getLast?_cons_cons.trans last
    | parent =>
      cases walked with
      | nil => contradiction
      | cons d before =>
        cases d with
        | root => exact last
        | current => exact List.getLast?_cons_cons.trans last
        | parent => exact List.getLast?_cons_cons.trans last
        | normal name =>
          cases before with
          | nil => simp at last
          | cons d before => exact List.getLast?_cons_cons.symm.trans last

theorem root_notMem_step {walked : List Component} {c : Component} (apart : .root ∉ walked) (other : c ≠ .root) :
    .root ∉ step walked c := by
  cases c with
  | root => contradiction
  | current => exact apart
  | normal name => simpa [step] using apart
  | parent =>
    cases walked with
    | nil => simp [step]
    | cons d before => cases d <;> simp_all [step]

/-- A walk that takes no root reaches none. -/
theorem root_notMem_walk {components : List Component} (steps : ∀ c ∈ components, c.IsStep) :
    .root ∉ walk components := by
  suffices h : ∀ walked : List Component,
      .root ∉ walked → .root ∉ components.foldl step walked by
    rw [walk, List.mem_reverse]
    exact h [] List.not_mem_nil
  intro walked apart
  induction components generalizing walked with
  | nil => exact apart
  | cons c rest ih =>
    refine ih (fun d member => steps d (List.mem_cons_of_mem _ member)) _ (root_notMem_step apart ?_)
    rintro rfl
    rcases steps .root List.mem_cons_self with same | inner
    · contradiction
    · exact inner.ne_root rfl

theorem isAbsolute_ofComponents {components : List Component} (steps : ∀ c ∈ components, c.IsStep) :
    (ofComponents (walk (.root :: components))).isAbsolute := by
  have ends := walked_walk_root steps
  have same := components_ofComponents ends
  rw [List.reverse_reverse] at same
  rw [isAbsolute_iff, same, head?_walk_root steps]

/-- The canonical form of an absolute path is canonical. -/
theorem isCanonical_normalize {p : Path} (h : p.isAbsolute) : p.normalize.IsCanonical := by
  refine isCanonical_of_normalize_eq ?_ (normalize_normalize p)
  rcases p.components_cases with ⟨_, rest, same, inner⟩ | ⟨relative, _⟩
  · rw [normalize, same]
    exact isAbsolute_ofComponents fun c member => .inr (inner c member)
  · contradiction

theorem isAbsolute_join {base : Path} (h : base.isAbsolute) (p : Path) : (base.join p).isAbsolute := by
  rw [join]
  split
  next absolute => exact absolute
  · have begun : base.text.toList.head? = some '/' := by simpa [isAbsolute] using h
    split
    next empty =>
      rw [String.isEmpty_iff.mp empty] at begun
      contradiction
    · split <;> simp [isAbsolute, begun]

/-- The key of a root is canonical, whatever the spelling of its path. -/
theorem isCanonical_absolute {directory : Path} (h : directory.isAbsolute) (p : Path) :
    (directory.absolute p).IsCanonical := by
  rw [absolute]
  split
  next given => exact isCanonical_normalize given
  next => exact isCanonical_normalize (isAbsolute_join h p)

def top : Path := ⟨"/"⟩

/-- What a specifier names in a unit of a canonical path other than the top is canonical. -/
theorem isCanonical_of_resolve {referrer target : Path} {specifier : String}
    (canonical : referrer.IsCanonical) (below : referrer ≠ top)
    (h : referrer.resolve specifier = some target) : target.IsCanonical := by
  refine isCanonical_of_normalize_eq ?_ (normalize_of_resolve h)
  rw [resolve] at h
  split at h
  · contradiction
  · dsimp only at h
    split at h
    next absolute =>
      rw [← Option.some.inj h]
      exact (isCanonical_normalize absolute).isAbsolute
    next relative =>
      rw [← Option.some.inj h]
      have target : ∀ c ∈ (Path.mk specifier).components, c.IsStep :=
        (components_cases ⟨specifier⟩).elim (fun h => absurd h.1 relative) (·.2)
      rcases referrer.components_cases with ⟨_, rest, same, inner⟩ | ⟨relative, _⟩
      · cases rest with
        | nil =>
          refine absurd ?_ below
          rw [← canonical.normalize_eq, normalize, same]
          rfl
        | cons c rest =>
          rw [same, directoryOf, List.dropLast_cons_cons, List.cons_append]
          refine isAbsolute_ofComponents fun d member => ?_
          rcases List.mem_append.mp member with member | member
          · exact .inr (inner d (List.dropLast_subset _ member))
          · exact target d member
      · exact absurd canonical.isAbsolute relative

/-- At the top a specifier that is not absolute names no absolute path. -/
theorem isAbsolute_of_resolve_top {target : Path} {specifier : String}
    (h : top.resolve specifier = some target) :
    target.isAbsolute ↔ (Path.mk specifier).isAbsolute := by
  rw [resolve] at h
  split at h
  · contradiction
  · dsimp only at h
    split at h
    next absolute =>
      rw [← Option.some.inj h]
      exact iff_of_true (isCanonical_normalize absolute).isAbsolute absolute
    next relative =>
      refine iff_of_false (fun absolute => ?_) relative
      have steps : ∀ c ∈ (Path.mk specifier).components, c.IsStep :=
        (components_cases ⟨specifier⟩).elim (fun h => absurd h.1 relative) (·.2)
      have ends := walked_walk steps
      have same := components_ofComponents ends
      rw [List.reverse_reverse] at same
      rw [← Option.some.inj h, isAbsolute_iff] at absolute
      change (ofComponents (walk (Path.mk specifier).components)).components.head? = _ at absolute
      rw [same] at absolute
      exact root_notMem_walk steps (List.mem_of_mem_head? absolute)

end Path
end Isolate
