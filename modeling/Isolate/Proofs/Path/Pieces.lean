import Isolate.Proofs.Path.Canonical

/-!
# Paths piece by piece

What stands between the separators of a path are its pieces. Joining a path onto a base puts the
pieces of one behind those of the other, and where a walk along them ends is determined by where it
was before. A walk along a canonical form goes where a walk along the path goes, from wherever it
starts.
-/

namespace Isolate.Path

def pieces (p : Path) : List (List Char) := Text.splitAtChar '/' p.text.toList

/-- The components of a path, but for the root or the dot that it may start with. -/
def inner (p : Path) : List Component := p.pieces.filterMap Component.ofPiece?

def start (p : Path) : List Component := if p.isAbsolute then [.root] else []

variable {p base : Path} {walked components : List Component}

theorem pieces_ne_nil (p : Path) : p.pieces ≠ [] := Text.splitAtChar_ne_nil _ _

/-- What a first piece counts for, if it does not stand alone and empty. -/
def leading (piece : List Char) : List Component :=
  if piece = [] then [.root] else if piece = ['.'] then [.current] else (Component.ofPiece? piece).toList

theorem componentsOf_of_pieces {text first : List Char} {rest : List (List Char)}
    (split : Text.splitAtChar '/' text = first :: rest) (more : first = [] → rest ≠ []) :
    componentsOf text = leading first ++ rest.filterMap Component.ofPiece? := by
  rw [componentsOf, split, leading]
  dsimp only
  by_cases empty : first = []
  · rw [if_pos (by simp [empty]), if_neg (by simp [more empty]), if_pos empty]
    rfl
  · rw [if_neg (by simp [empty]), if_neg empty]
    split <;> rfl

/-- A path is absolute if it has a separator with nothing in front of it. -/
theorem isAbsolute_iff_pieces : p.isAbsolute ↔ ∃ rest, p.pieces = [] :: rest ∧ rest ≠ [] := by
  rw [isAbsolute, pieces]
  cases p.text.toList with
  | nil => simp [Text.splitAtChar]
  | cons c chars =>
    have some := Text.splitAtChar_ne_nil '/' chars
    rw [List.head?_cons, beq_iff_eq, Option.some.injEq, Text.splitAtChar]
    by_cases separator : c = '/'
    · rw [if_pos separator]
      exact iff_of_true separator ⟨_, rfl, some⟩
    · rw [if_neg separator]
      refine iff_of_false separator ?_
      cases split : Text.splitAtChar '/' chars with
      | nil => exact absurd split some
      | cons piece rest => simp

theorem components_of_absolute (h : p.isAbsolute) : p.components = .root :: p.inner := by
  obtain ⟨rest, split, some⟩ := isAbsolute_iff_pieces.mp h
  rw [components, componentsOf_of_pieces split fun _ => some, inner, split]
  rfl

/-- A relative path may start with a dot, which takes a walk nowhere. -/
theorem components_of_relative (h : ¬p.isAbsolute) :
    p.components = p.inner ∨ p.components = .current :: p.inner := by
  cases split : p.pieces with
  | nil => exact absurd split p.pieces_ne_nil
  | cons first rest =>
    rw [inner, split]
    by_cases empty : first = []
    · have alone : rest = [] := by
        by_contra some
        exact h (isAbsolute_iff_pieces.mpr ⟨rest, by rw [split, empty], some⟩)
      rw [pieces] at split
      rw [components, componentsOf, split, empty, alone]
      exact .inl rfl
    · rw [components, componentsOf_of_pieces split fun nothing => absurd nothing empty, leading,
        if_neg empty]
      split
      next dot => exact .inr (by rw [dot]; rfl)
      next =>
        left
        rw [List.filterMap_cons]
        cases Component.ofPiece? first <;> rfl

theorem foldl_components_of_relative (h : ¬p.isAbsolute) (walked : List Component) :
    p.components.foldl step walked = p.inner.foldl step walked := by
  rcases components_of_relative h with same | same <;> rw [same]
  rfl

theorem foldl_components (p : Path) : p.components.foldl step [] = p.inner.foldl step p.start := by
  by_cases absolute : p.isAbsolute
  · rw [components_of_absolute absolute, start, if_pos absolute]
    rfl
  · rw [foldl_components_of_relative absolute, start, if_neg absolute]

theorem isInner_of_mem_inner {c : Component} (h : c ∈ p.inner) : c.IsInner :=
  isInner_of_mem_filterMap (fun _ => id) h

theorem walked_start (p : Path) : Walked p.start := by
  rw [start]
  split
  · exact .root
  · exact .up 0

/-- Where a walk along a path ends. -/
theorem walked_foldl_inner (h : Walked walked) (p : Path) : Walked (p.inner.foldl step walked) :=
  h.foldl fun _ member => .inr (isInner_of_mem_inner member)

theorem normalize_eq (p : Path) :
    p.normalize = ofComponents (p.inner.foldl step p.start).reverse := by
  rw [normalize, walk, foldl_components]

theorem components_normalize (p : Path) :
    p.normalize.components = (p.inner.foldl step p.start).reverse := by
  rw [normalize_eq, components_ofComponents (walked_foldl_inner p.walked_start p)]

theorem pieces_join_cases (relative : ¬p.isAbsolute) :
    ((base.join p).pieces = p.pieces ∧ base.text = "") ∨
      ∃ front idle, base.pieces = front ++ idle ∧ (∀ piece ∈ idle, piece = []) ∧
        (base.join p).pieces = front ++ p.pieces := by
  rw [join, if_neg relative]
  split
  next empty => exact .inl ⟨rfl, String.isEmpty_iff.mp empty⟩
  next some =>
    right
    split
    next ends =>
      obtain ⟨front, text⟩ := List.getLast?_eq_some_iff.mp (beq_iff_eq.mp ends)
      refine ⟨Text.splitAtChar '/' front, [[]], ?_, by simp, ?_⟩
      · rw [pieces, text, Text.splitAtChar_append_cons]
        rfl
      · rw [pieces, String.toList_append, text, List.append_assoc]
        exact Text.splitAtChar_append_cons _ _ _
    next =>
      refine ⟨base.pieces, [], by simp, by simp, ?_⟩
      have text : (base.text ++ "/" ++ p.text).toList = base.text.toList ++ '/' :: p.text.toList := by
        simp
      rw [pieces, text, Text.splitAtChar_append_cons]
      rfl

/-- The inner components of a joined path are those of its base and those of the path. -/
theorem inner_join (relative : ¬p.isAbsolute) : (base.join p).inner = base.inner ++ p.inner := by
  rcases @pieces_join_cases p base relative with ⟨same, empty⟩ | ⟨front, idle, split, plain, same⟩
  · have none : base.inner = [] := by
      rw [inner, pieces, empty]
      rfl
    rw [none, inner, same]
    rfl
  · have none : idle.filterMap Component.ofPiece? = [] := by
      rw [List.filterMap_eq_nil_iff]
      intro piece member
      rw [plain piece member]
      rfl
    rw [inner, same, List.filterMap_append, inner, split, List.filterMap_append, none, List.append_nil]
    rfl

theorem isAbsolute_join_of_relative (relative : ¬p.isAbsolute) :
    (base.join p).isAbsolute = base.isAbsolute := by
  rw [join, if_neg relative]
  split
  next empty =>
    rw [Bool.not_eq_true] at relative
    rw [relative, isAbsolute, String.isEmpty_iff.mp empty]
    rfl
  next some =>
    have begun : base.text.toList ≠ [] := by simpa [String.isEmpty_iff] using some
    split <;> simp [isAbsolute, List.head?_append_of_ne_nil _ begun]

/-- A joined path starts where its base does. -/
theorem start_join (relative : ¬p.isAbsolute) : (base.join p).start = base.start := by
  rw [start, start, isAbsolute_join_of_relative relative]

/-- Taking one more component commutes with going from somewhere else. -/
theorem foldl_reverse_step (rootless : .root ∉ walked) (c : Component) (before : List Component) :
    (step walked c).reverse.foldl step before = step (walked.reverse.foldl step before) c := by
  have pushed (d : Component) (walked : List Component) :
      (d :: walked).reverse.foldl step before = step (walked.reverse.foldl step before) d := by
    rw [List.reverse_cons, List.foldl_append]
    rfl
  cases c with
  | root | normal _ => exact pushed _ walked
  | current => rfl
  | parent =>
    cases walked with
    | nil => rfl
    | cons d rest =>
      cases d with
      | root => exact absurd List.mem_cons_self rootless
      | current | parent => exact pushed .parent _
      | normal name =>
        -- Going back over a name undoes it, wherever the walk began.
        rw [pushed]
        rfl

/-- A walk along where a walk ends goes as far as the walk does, from wherever it starts. -/
theorem foldl_reverse_foldl (rootless : .root ∉ walked) (plain : .root ∉ components)
    (before : List Component) :
    (components.foldl step walked).reverse.foldl step before =
      components.foldl step (walked.reverse.foldl step before) := by
  induction components generalizing walked with
  | nil => rfl
  | cons c rest ih =>
    obtain ⟨other, plain⟩ := List.ne_and_not_mem_of_not_mem_cons plain
    rw [List.foldl_cons, List.foldl_cons, ih (root_notMem_step rootless (Ne.symm other)) plain,
      foldl_reverse_step rootless]

theorem root_notMem_inner (p : Path) : .root ∉ p.inner := fun member =>
  (isInner_of_mem_inner member).ne_root rfl

theorem isAbsolute_normalize (p : Path) : p.normalize.isAbsolute ↔ p.isAbsolute := by
  refine ⟨fun h => ?_, fun h => (isCanonical_normalize h).isAbsolute⟩
  by_contra relative
  rw [isAbsolute_iff, components_normalize, start, if_neg relative] at h
  have steps : ∀ c ∈ p.inner, c.IsStep := fun c member => .inr (isInner_of_mem_inner member)
  exact root_notMem_walk steps (List.mem_of_mem_head? h)

/-- The canonical form of a relative path leads where the path does, from wherever a walk starts. -/
theorem foldl_inner_normalize (relative : ¬p.isAbsolute) (walked : List Component) :
    p.normalize.inner.foldl step walked = p.inner.foldl step walked := by
  have relative' : ¬p.normalize.isAbsolute := mt (isAbsolute_normalize p).mp relative
  rw [← foldl_components_of_relative relative', components_normalize, start, if_neg relative,
    foldl_reverse_foldl List.not_mem_nil p.root_notMem_inner]
  rfl

/-- A walk along the canonical form of a path ends where a walk along the path does. -/
theorem foldl_inner_start_normalize (p : Path) :
    p.normalize.inner.foldl step p.normalize.start = p.inner.foldl step p.start := by
  rw [← foldl_components, components_normalize,
    (walked_foldl_inner p.walked_start p).foldl_reverse]

end Isolate.Path
