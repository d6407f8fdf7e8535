import Isolate.Proofs.Path.Pieces

/-!
# Canonical forms and joining

The canonical form of a path has no piece that counts for nothing, and `..` only where a relative
path has nothing to go back over. A path may be brought into its canonical form before it is joined
onto another one that is, or after.
-/

namespace Isolate.Path

variable {p : Path} {walked : List Component}

/-- Where a walk can be: at names below the root, or at names below steps up. -/
theorem Walked.reverse_shape (h : Walked walked) :
    ∃ names : List Component, (∀ c ∈ names, c.IsInner ∧ c ≠ .parent) ∧
      (walked.reverse = .root :: names ∨
        ∃ n, walked.reverse = List.replicate n .parent ++ names) := by
  induction h with
  | up n => exact ⟨[], by simp, .inr ⟨n, by simp⟩⟩
  | root => exact ⟨[], by simp, .inl rfl⟩
  | @down name walked _ inner ih =>
    obtain ⟨names, plain, shape⟩ := ih
    refine ⟨names ++ [.normal name], fun c member => ?_, ?_⟩
    · rcases List.mem_append.mp member with member | member
      · exact plain c member
      · rw [List.mem_singleton.mp member]
        exact ⟨inner, nofun⟩
    · rw [List.reverse_cons]
      rcases shape with same | ⟨n, same⟩
      · exact .inl (by rw [same]; rfl)
      · exact .inr ⟨n, by rw [same, List.append_assoc]⟩

theorem splitAtChar_writeRelative_cases {components : List Component}
    (inner : ∀ c ∈ components, c.IsInner) :
    (components = [] ∧ Text.splitAtChar '/' (writeRelative components) = [[]]) ∨
      components ≠ [] ∧
        Text.splitAtChar '/' (writeRelative components) = components.map Component.toList := by
  by_cases nothing : components = []
  · exact .inl ⟨nothing, by rw [nothing]; rfl⟩
  · exact .inr ⟨nothing, splitAtChar_writeRelative nothing inner⟩

/-- The canonical form of an absolute path is a separator, and names behind it. -/
theorem pieces_normalize_of_absolute (h : p.isAbsolute) :
    p.normalize.text = "/" ∨ ∃ names : List Component, names ≠ [] ∧
      (∀ c ∈ names, c.IsInner ∧ c ≠ .parent) ∧
        p.normalize.pieces = [] :: names.map Component.toList := by
  have ends := walked_foldl_inner p.walked_start p
  have begun := isAbsolute_iff.mp ((isAbsolute_normalize p).mpr h)
  rw [components_normalize] at begun
  obtain ⟨names, plain, shape⟩ := ends.reverse_shape
  have inner : ∀ c ∈ names, c.IsInner := fun c member => (plain c member).1
  have same : (p.inner.foldl step p.start).reverse = .root :: names := by
    rcases shape with same | ⟨n, same⟩
    · exact same
    · rw [same] at begun
      rcases List.mem_append.mp (List.mem_of_mem_head? begun) with member | member
      · exact absurd (List.eq_of_mem_replicate member) nofun
      · exact absurd rfl (inner _ member).ne_root
  rcases splitAtChar_writeRelative_cases inner with ⟨rfl, _⟩ | ⟨some, split⟩
  · exact .inl (by rw [normalize_eq, same]; rfl)
  · refine .inr ⟨names, some, plain, ?_⟩
    rw [pieces, normalize_eq, same, ofComponents, String.toList_ofList, write, Text.splitAtChar,
      if_pos rfl, split]

/-- The canonical form of a relative path is empty, or steps up and then names. -/
theorem pieces_normalize_of_relative (h : ¬p.isAbsolute) :
    p.normalize.pieces = [[]] ∨ ∃ (n : Nat) (names : List Component),
      (∀ c ∈ names, c.IsInner ∧ c ≠ .parent) ∧ p.normalize.pieces =
        List.replicate n ['.', '.'] ++ names.map Component.toList := by
  have ends := walked_foldl_inner p.walked_start p
  have begun := mt (isAbsolute_normalize p).mp h
  rw [isAbsolute_iff, components_normalize] at begun
  obtain ⟨names, plain, shape⟩ := ends.reverse_shape
  obtain ⟨n, same⟩ : ∃ n, (p.inner.foldl step p.start).reverse =
      List.replicate n .parent ++ names := by
    rcases shape with same | steps
    · rw [same] at begun
      exact absurd rfl begun
    · exact steps
  have inner : ∀ c ∈ List.replicate n Component.parent ++ names, c.IsInner := by
    intro c member
    rcases List.mem_append.mp member with member | member
    · rw [List.eq_of_mem_replicate member]
      exact ⟨by decide, by decide⟩
    · exact (plain c member).1
  have text : write (List.replicate n .parent ++ names) =
      writeRelative (List.replicate n .parent ++ names) := by
    cases steps : List.replicate n .parent ++ names with
    | nil => rfl
    | cons c rest =>
      have first := inner c (steps ▸ List.mem_cons_self)
      cases c with
      | root => exact absurd rfl first.ne_root
      | _ => rfl
  rw [pieces, normalize_eq, same, ofComponents, String.toList_ofList, text]
  rcases splitAtChar_writeRelative_cases inner with ⟨_, split⟩ | ⟨_, split⟩
  · exact .inl split
  · refine .inr ⟨n, names, plain, ?_⟩
    rw [split, List.map_append, List.map_replicate]
    rfl

/-- In a canonical form a piece behind the first one is empty only if the path is the root. -/
theorem text_normalize_of_nil_mem (h : [] ∈ p.normalize.pieces.tail) : p.normalize.text = "/" := by
  by_cases absolute : p.isAbsolute
  · rcases pieces_normalize_of_absolute absolute with root | ⟨names, _, plain, split⟩
    · exact root
    · rw [split, List.tail_cons] at h
      obtain ⟨c, member, empty⟩ := List.mem_map.mp h
      exact absurd empty (plain c member).1.toList_ne.1
  · rcases pieces_normalize_of_relative absolute with split | ⟨n, names, plain, split⟩
    · rw [split] at h
      contradiction
    · rw [split] at h
      rcases List.mem_append.mp (List.mem_of_mem_tail h) with member | member
      · exact absurd (List.eq_of_mem_replicate member) nofun
      · obtain ⟨c, member, empty⟩ := List.mem_map.mp member
        exact absurd empty (plain c member).1.toList_ne.1

/-- A separator behind which nothing stands is the root. -/
theorem text_normalize_of_trailing (h : p.normalize.text.toList.getLast? = some '/') :
    p.normalize.text = "/" := by
  obtain ⟨front, text⟩ := List.getLast?_eq_some_iff.mp h
  apply text_normalize_of_nil_mem
  rw [pieces, text, Text.splitAtChar_append_cons]
  cases split : Text.splitAtChar '/' front with
  | nil => exact absurd split (Text.splitAtChar_ne_nil _ _)
  | cons piece rest => simp [Text.splitAtChar]

theorem not_repeated_normalize (p : Path) : ¬['/', '/'] <:+: p.normalize.text.toList := by
  rintro ⟨front, back, text⟩
  have root : p.normalize.text = "/" := by
    apply text_normalize_of_nil_mem
    rw [pieces, ← text, List.append_assoc, List.cons_append, Text.splitAtChar_append_cons]
    cases split : Text.splitAtChar '/' front with
    | nil => exact absurd split (Text.splitAtChar_ne_nil _ _)
    | cons piece rest => simp [Text.splitAtChar]
  have short := congrArg List.length text
  rw [root] at short
  simp at short
  omega

/-- A text that spells a path without a piece that counts for nothing. The separator of the root alone
stands at an end. -/
structure IsTidy (p : Path) : Prop where
  no_current : ['.'] ∉ p.pieces
  no_repeated : ¬['/', '/'] <:+: p.text.toList
  no_trailing : p.text.toList.getLast? = some '/' → p.text = "/"
  absolute : p.isAbsolute → ['.', '.'] ∉ p.pieces
  relative : ¬p.isAbsolute →
    ∃ n names, p.pieces = List.replicate n ['.', '.'] ++ names ∧ ['.', '.'] ∉ names

theorem parent_notMem_map {names : List Component} (plain : ∀ c ∈ names, c.IsInner ∧ c ≠ .parent) :
    ['.', '.'] ∉ names.map Component.toList := by
  rintro member
  obtain ⟨c, member, dots⟩ := List.mem_map.mp member
  have read := (plain c member).1.2
  rw [dots] at read
  exact (plain c member).2 (Option.some.inj read).symm

theorem current_notMem_map {names : List Component} (plain : ∀ c ∈ names, c.IsInner ∧ c ≠ .parent) :
    ['.'] ∉ names.map Component.toList := by
  rintro member
  obtain ⟨c, member, dot⟩ := List.mem_map.mp member
  exact (plain c member).1.toList_ne.2 dot

theorem isTidy_normalize (p : Path) : p.normalize.IsTidy := by
  have root (same : p.normalize.text = "/") : p.normalize.pieces = [[], []] := by
    rw [pieces, same]
    rfl
  refine ⟨?_, p.not_repeated_normalize, text_normalize_of_trailing, fun absolute => ?_,
    fun relative => ?_⟩
  · by_cases absolute : p.isAbsolute
    · rcases pieces_normalize_of_absolute absolute with same | ⟨names, _, plain, split⟩
      · rw [root same]
        decide
      · rw [split, List.mem_cons, not_or]
        exact ⟨List.cons_ne_nil _ _, current_notMem_map plain⟩
    · rcases pieces_normalize_of_relative absolute with split | ⟨n, names, plain, split⟩
      · rw [split]
        decide
      · rw [split, List.mem_append, not_or]
        exact ⟨fun member => absurd (List.eq_of_mem_replicate member) (by decide), current_notMem_map plain⟩
  · rcases pieces_normalize_of_absolute ((isAbsolute_normalize p).mp absolute) with
      same | ⟨names, _, plain, split⟩
    · rw [root same]
      decide
    · rw [split, List.mem_cons, not_or]
      exact ⟨List.cons_ne_nil _ _, parent_notMem_map plain⟩
  · rcases pieces_normalize_of_relative (mt (isAbsolute_normalize p).mpr relative) with
      split | ⟨n, names, plain, split⟩
    · exact ⟨0, [[]], split, by decide⟩
    · exact ⟨n, _, split, parent_notMem_map plain⟩

theorem join_of_absolute {base : Path} (h : p.isAbsolute) : base.join p = p := if_pos h

/-- A walk along a joined path goes along the base and then along the path. -/
theorem foldl_inner_join {base : Path} (relative : ¬p.isAbsolute) :
    (base.join p).inner.foldl step (base.join p).start =
      p.inner.foldl step (base.inner.foldl step base.start) := by
  rw [inner_join relative, start_join relative, List.foldl_append]

/-- Paths may be brought into canonical form before they are joined. -/
theorem normalize_join (base p : Path) :
    (base.join p).normalize = (base.normalize.join p.normalize).normalize := by
  by_cases absolute : p.isAbsolute
  · rw [join_of_absolute absolute, join_of_absolute ((isAbsolute_normalize p).mpr absolute),
      normalize_normalize]
  · have relative : ¬p.normalize.isAbsolute := mt (isAbsolute_normalize p).mp absolute
    rw [normalize_eq, normalize_eq, foldl_inner_join absolute, foldl_inner_join relative,
      foldl_inner_start_normalize, foldl_inner_normalize absolute]

/-- The canonical form of a path is spelled without a piece that counts for nothing, is absolute exactly
if the path is, and is its own canonical form; and it stands for the path on both sides of a joint. -/
theorem normalize_is_canonical :
    (∀ p : Path, p.normalize.IsTidy ∧ (p.normalize.isAbsolute ↔ p.isAbsolute) ∧
        p.normalize.normalize.text = p.normalize.text) ∧
      ∀ base p : Path, (base.join p).normalize = (base.normalize.join p.normalize).normalize :=
  ⟨fun p => ⟨p.isTidy_normalize, p.isAbsolute_normalize, by rw [normalize_normalize]⟩, normalize_join⟩

end Isolate.Path
