import Isolate.Proofs.Path.Pieces

/-!
# The directory of a file

What stands in front of the last component of a path, as it was written, has the components that the path
has in front of its last one.
-/

namespace Isolate

namespace Text

/-- Pieces without separators are read back from the text that they are put together to. -/
theorem splitAtChar_intercalate {c : Char} {pieces : List (List Char)} (some : pieces ≠ [])
    (clear : ∀ piece ∈ pieces, c ∉ piece) : splitAtChar c ([c].intercalate pieces) = pieces := by
  induction pieces with
  | nil => contradiction
  | cons piece rest ih =>
    have own := clear piece List.mem_cons_self
    cases rest with
    | nil => simpa using splitAtChar_of_not_mem own
    | cons next rest =>
      have text : [c].intercalate (piece :: next :: rest) =
          piece ++ c :: [c].intercalate (next :: rest) := by simp [List.intercalate]
      rw [text, splitAtChar_append own, ih nofun fun p member => clear p (List.mem_cons_of_mem _ member)]

end Text

namespace Path

/-- A piece that counts for nothing inside a path. -/
abbrev IsIdle (piece : List Char) : Prop := piece = [] ∨ piece = ['.']

theorem ofPiece?_of_isIdle {piece : List Char} (h : IsIdle piece) : Component.ofPiece? piece = none :=
  if_pos h

theorem ofPiece?_of_not_isIdle {piece : List Char} (h : ¬IsIdle piece) :
    ∃ c, Component.ofPiece? piece = some c := by
  rw [Component.ofPiece?, if_neg h]
  split <;> exact ⟨_, rfl⟩

theorem filterMap_of_isIdle {idle : List (List Char)} (h : ∀ piece ∈ idle, IsIdle piece) :
    idle.filterMap Component.ofPiece? = [] :=
  List.filterMap_eq_nil_iff.mpr fun piece member => ofPiece?_of_isIdle (h piece member)

/-- Of pieces, the last first, those at the end are dropped that count for nothing, but never the first
one of all. -/
theorem dropIdle_cases {pieces : List (List Char)} (some : pieces ≠ []) :
    ∃ idle piece before, pieces = idle ++ piece :: before ∧ dropIdle pieces = piece :: before ∧
      (∀ p ∈ idle, IsIdle p) ∧ (before = [] ∨ ¬IsIdle piece) := by
  induction pieces with
  | nil => contradiction
  | cons piece rest ih =>
    cases rest with
    | nil => exact ⟨[], piece, [], rfl, rfl, by simp, .inl rfl⟩
    | cons next rest =>
      by_cases counts : IsIdle piece
      · obtain ⟨idle, last, before, same, dropped, plain, ends⟩ := ih nofun
        refine ⟨piece :: idle, last, before, by rw [same]; rfl, ?_, fun p member => ?_, ends⟩
        · rw [dropIdle, if_pos counts, dropped]
        · rcases List.mem_cons.mp member with rfl | member
          · exact counts
          · exact plain p member
      · exact ⟨[], piece, next :: rest, rfl, by rw [dropIdle, if_neg counts], by simp, .inr counts⟩

/-- The directory of a file as it is written. A path without a last component has none, and the empty path
stands for it. -/
def directory (p : Path) : Path := p.parent?.getD ⟨""⟩

variable {p : Path} {first last : List Char} {rest idle idle' : List (List Char)}

theorem clear_pieces (p : Path) : ∀ piece ∈ p.pieces, '/' ∉ piece :=
  fun _ member => Text.not_mem_of_mem_splitAtChar member

theorem components_eq_of_pieces (split : p.pieces = first :: rest) (more : first = [] → rest ≠ []) :
    p.components = leading first ++ rest.filterMap Component.ofPiece? :=
  componentsOf_of_pieces split more

/-- In front of the last piece that counts stand the components of the pieces there. -/
theorem directoryOf_of_pieces (split : p.pieces = first :: (rest ++ (idle' ++ last :: idle)))
    (plain : ∀ p ∈ idle, IsIdle p) (plain' : ∀ p ∈ idle', IsIdle p) (counts : ¬IsIdle last) :
    directoryOf p.components = leading first ++ rest.filterMap Component.ofPiece? := by
  obtain ⟨c, read⟩ := ofPiece?_of_not_isIdle counts
  rw [directoryOf, components_eq_of_pieces split (by simp), List.filterMap_append,
    List.filterMap_append, filterMap_of_isIdle plain', List.filterMap_cons_some read,
    filterMap_of_isIdle plain, List.nil_append, ← List.append_assoc, List.dropLast_concat]

/-- If no piece behind the first one counts, nothing stands in front of the last component. -/
theorem directoryOf_of_idle (split : p.pieces = first :: idle) (plain : ∀ p ∈ idle, IsIdle p) :
    directoryOf p.components = [] := by
  by_cases nothing : first = [] ∧ idle = []
  · obtain ⟨rfl, rfl⟩ := nothing
    rw [pieces] at split
    rw [components, componentsOf, split]
    rfl
  · rw [directoryOf, components_eq_of_pieces split fun empty none => nothing ⟨empty, none⟩,
      filterMap_of_isIdle plain, List.append_nil, leading]
    split
    · rfl
    · split
      · rfl
      · cases Component.ofPiece? first <;> rfl

theorem directory_of_first (dropped : dropIdle p.pieces.reverse = [first]) : p.directory = ⟨""⟩ := by
  rw [pieces] at dropped
  rw [directory, parent?, dropped]
  split
  · contradiction
  · rfl
  next kept =>
    obtain ⟨rfl, rfl⟩ := List.cons.inj kept
    rfl

theorem directory_of_above {before : List (List Char)} (dropped : dropIdle p.pieces.reverse = last :: before)
    (some : before ≠ []) : p.directory =
      if dropIdle before = [[]] then ⟨"/"⟩
      else ⟨String.ofList (['/'].intercalate (dropIdle before).reverse)⟩ := by
  rw [pieces] at dropped
  rw [directory, parent?, dropped]
  split
  · contradiction
  next alone => exact absurd (List.cons.inj alone).2 some
  next kept =>
    obtain ⟨rfl, rfl⟩ := List.cons.inj kept
    split
    next root => rw [if_pos root]; rfl
    next unrooted => rw [if_neg unrooted]; rfl

/-- The directory of a file has the components in front of the last one. -/
theorem components_directory (p : Path) : p.directory.components = directoryOf p.components := by
  have some : p.pieces.reverse ≠ [] := List.reverse_ne_nil_iff.mpr p.pieces_ne_nil
  obtain ⟨idle, last, before, same, dropped, plain, ends⟩ := dropIdle_cases some
  have split : p.pieces = before.reverse ++ last :: idle.reverse := by
    rw [← List.reverse_reverse p.pieces, same]
    simp
  have plain : ∀ p ∈ idle.reverse, IsIdle p := fun p member => plain p (List.mem_reverse.mp member)
  by_cases alone : before = []
  · subst alone
    rw [directory_of_first dropped, directoryOf_of_idle split plain]
    rfl
  have counts : ¬IsIdle last := ends.resolve_left alone
  obtain ⟨idle', piece, above, same', dropped', plain', _⟩ := dropIdle_cases alone
  have plain' : ∀ p ∈ idle'.reverse, IsIdle p := fun p member => plain' p (List.mem_reverse.mp member)
  have reversed : (piece :: above).reverse ≠ [] := by simp
  obtain ⟨first, rest, front⟩ := List.exists_cons_of_ne_nil reversed
  have whole : p.pieces = first :: (rest ++ (idle'.reverse ++ last :: idle.reverse)) := by
    rw [split, same', List.reverse_append, front]
    simp
  rw [directory_of_above dropped alone, directoryOf_of_pieces whole plain plain' counts, dropped', front]
  split
  next root =>
    rw [root] at front
    obtain ⟨rfl, rfl⟩ := List.cons.inj front
    rfl
  next unrooted =>
    have clear : ∀ piece ∈ first :: rest, '/' ∉ piece := fun piece member =>
      p.clear_pieces piece (by rw [whole, ← List.cons_append]; exact List.mem_append_left _ member)
    apply components_eq_of_pieces
    · rw [pieces, String.toList_ofList, Text.splitAtChar_intercalate (List.cons_ne_nil _ _) clear]
    · rintro rfl rfl
      exact unrooted (List.reverse_eq_iff.mp front)

end Path
end Isolate
