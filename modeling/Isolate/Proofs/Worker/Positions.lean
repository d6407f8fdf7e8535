import Isolate.Proofs.Worker.Wrapped
import Mathlib.Data.List.TakeWhile

/-!
# Lines and columns in CommonJS files

The line of a character is told by the newlines before it, its column by the characters behind the last
of them. The head of a wrapped file has no newline, so that it moves the columns of the first line and
nothing else, and unwrapping moves them back.
-/

namespace Isolate.Wrapper

variable {line column i : Nat} {text body : List Char}

/-- The line of an offset: one more than the newlines before it. -/
def lineOf (text : List Char) (i : Nat) : Nat := (text.take i).count '\n' + 1

/-- The column of an offset: one more than the characters between the last newline and it. -/
def columnOf (text : List Char) (i : Nat) : Nat :=
  ((text.take i).reverse.takeWhile (· ≠ '\n')).length + 1

/-- The location of an offset. -/
def locationOf (label : String) (text : List Char) (i : Nat) : Location :=
  ⟨label, some (positionOf 1 1 text i).1, some (positionOf 1 1 text i).2⟩

theorem positionOf_zero : positionOf line column text 0 = (line, column) := by
  cases text <;> rfl

theorem positionOf_succ (inText : i < text.length) : positionOf line column text (i + 1) =
    if text[i] = '\n' then ((positionOf line column text i).1 + 1, 1)
    else ((positionOf line column text i).1, (positionOf line column text i).2 + 1) := by
  induction i generalizing text line column with
  | zero =>
    cases text with
    | nil => contradiction
    | cons c rest =>
      rw [positionOf_zero, positionOf, positionOf_zero, positionOf_zero]
      rfl
  | succ i ih =>
    cases text with
    | nil => contradiction
    | cons c rest =>
      have inRest : i < rest.length := Nat.lt_of_succ_lt_succ inText
      rw [positionOf, positionOf, List.getElem_cons_succ]
      by_cases newline : c = '\n'
      · rw [if_pos newline, if_pos newline]
        exact ih inRest
      · rw [if_neg newline, if_neg newline]
        exact ih inRest

theorem lineOf_succ (inText : i < text.length) :
    lineOf text (i + 1) = if text[i] = '\n' then lineOf text i + 1 else lineOf text i := by
  rw [lineOf, lineOf, ← List.take_append_getElem inText, List.count_append, List.count_singleton]
  by_cases newline : text[i] = '\n'
  · simp [newline]
  · simp [newline]

theorem columnOf_succ (inText : i < text.length) :
    columnOf text (i + 1) = if text[i] = '\n' then 1 else columnOf text i + 1 := by
  rw [columnOf, columnOf, ← List.take_append_getElem inText, List.reverse_concat]
  by_cases newline : text[i] = '\n'
  · simp [newline]
  · simp [newline]

/-- Counting character by character gives the line and the column. -/
theorem positionOf_eq (inText : i ≤ text.length) :
    positionOf 1 1 text i = (lineOf text i, columnOf text i) := by
  induction i with
  | zero => exact positionOf_zero
  | succ i ih =>
    rw [positionOf_succ inText, ih (Nat.le_of_lt inText), lineOf_succ inText, columnOf_succ inText]
    split <;> rfl

theorem newline_notMem_head : '\n' ∉ head := by decide

theorem take_wrap (inBody : i ≤ body.length) :
    (wrap body).take (i + head.length) = head ++ body.take i := by
  rw [wrap, List.append_assoc, Nat.add_comm, List.take_length_add_append,
    List.take_append_of_le_length inBody]

theorem lineOf_wrap (inBody : i ≤ body.length) :
    lineOf (wrap body) (i + head.length) = lineOf body i := by
  rw [lineOf, take_wrap inBody, List.count_append, List.count_eq_zero.mpr newline_notMem_head,
    Nat.zero_add, lineOf]

theorem lineOf_eq_one_iff : lineOf text i = 1 ↔ '\n' ∉ text.take i := by
  rw [lineOf, Nat.add_eq_right, List.count_eq_zero]

/-- Characters without a newline stand in one line. -/
theorem length_takeWhile_reverse :
    (text.reverse.takeWhile (· ≠ '\n')).length = text.reverse.length ↔ '\n' ∉ text := by
  have whole : (text.reverse.takeWhile (· ≠ '\n')).length = text.reverse.length ↔
      text.reverse.takeWhile (· ≠ '\n') = text.reverse :=
    ⟨(List.takeWhile_prefix _).eq_of_length, congrArg List.length⟩
  rw [whole, List.takeWhile_eq_self_iff]
  simp only [List.mem_reverse, decide_eq_true_iff]
  exact ⟨fun level newline => level _ newline rfl, fun level c member same => level (same ▸ member)⟩

/-- The head moves the columns of the first line. -/
theorem columnOf_wrap (inBody : i ≤ body.length) :
    columnOf (wrap body) (i + head.length) =
      columnOf body i + if lineOf body i = 1 then head.length else 0 := by
  have level : head.reverse.takeWhile (· ≠ '\n') = head.reverse := by decide
  rw [columnOf, columnOf, take_wrap inBody, List.reverse_append, List.takeWhile_append]
  by_cases first : lineOf body i = 1
  · have whole := length_takeWhile_reverse.mpr (lineOf_eq_one_iff.mp first)
    have top : head.reverse.length = head.length := List.length_reverse
    rw [if_pos whole, if_pos first, level, List.length_append, whole, top]
    omega
  · have broken := mt length_takeWhile_reverse.mp (mt lineOf_eq_one_iff.mpr first)
    rw [if_neg broken, if_neg first]

theorem locationOf_eq (label : String) (inText : i ≤ text.length) :
    locationOf label text i = ⟨label, some (lineOf text i), some (columnOf text i)⟩ := by
  rw [locationOf, positionOf_eq inText]

/-- The location of a character in the wrapped text is unwrapped to its location in the body. -/
theorem unwrap_locationOf (label : String) (inBody : i ≤ body.length) :
    unwrap (locationOf label (wrap body) (i + head.length)) = locationOf label body i := by
  have inText : i + head.length ≤ (wrap body).length := by
    rw [wrap, List.length_append, List.length_append]
    omega
  rw [locationOf_eq label inText, locationOf_eq label inBody, lineOf_wrap inBody,
    columnOf_wrap inBody]
  by_cases first : lineOf body i = 1
  · have shown : 1 ≤ columnOf body i := Nat.le_add_left 1 _
    rw [if_pos first, first, unwrap_first, Nat.add_sub_cancel, Nat.max_eq_right shown]
  · rw [if_neg first, Nat.add_zero, unwrap_below label first]

/-- On the first line a column is left that counts from one: behind the head what is left of it when
the head is taken off, in the head the first. -/
theorem exists_column_unwrap {location : Location} (first : location.line = some 1)
    (found : location.column = some column) :
    ∃ shown, unwrap location = { location with column := some shown } ∧ 1 ≤ shown ∧
      if column ≤ head.length then shown = 1 else shown + head.length = column := by
  refine ⟨max 1 (column - head.length), ?_, Nat.le_max_left _ _, ?_⟩
  · rw [unwrap, first, found]
    rfl
  · split <;> omega

/-- Unwrapping takes back what the head does to places. The line of a character is told by the newlines
before it, and its column by the characters behind the last of them; the location that the character has
in the wrapped text is unwrapped to the one that it has in the body. Any other location keeps its label
and its line, keeps its column off the first line, and has a column that counts from one on it. -/
theorem unwrapping_inverts_wrapping :
    (∀ (text : List Char) (i : Nat), i ≤ text.length →
      positionOf 1 1 text i = (lineOf text i, columnOf text i)) ∧
    (∀ (label : String) (body : List Char) (i : Nat), i ≤ body.length →
      unwrap (locationOf label (wrap body) (i + head.length)) = locationOf label body i) ∧
    ∀ location : Location,
      (unwrap location).label = location.label ∧ (unwrap location).line = location.line ∧
      (location.line ≠ some 1 ∨ location.column = none → unwrap location = location) ∧
      ∀ column, location.line = some 1 → location.column = some column →
        ∃ shown, (unwrap location).column = some shown ∧ 1 ≤ shown ∧
          (column < UInt64.size → shown < UInt64.size) ∧
          if column ≤ head.length then shown = 1 else shown + head.length = column := by
  refine ⟨fun _ _ => positionOf_eq, fun label _ _ => unwrap_locationOf label, fun location => ?_⟩
  by_cases kept : location.line ≠ some 1 ∨ location.column = none
  · rw [unwrap_of_kept kept]
    refine ⟨rfl, rfl, fun _ => rfl, fun column first found => ?_⟩
    rcases kept with below | bare
    · exact absurd first below
    · rw [bare] at found
      contradiction
  · obtain ⟨first, bare⟩ := not_or.mp kept
    obtain ⟨column, found⟩ := Option.ne_none_iff_exists'.mp bare
    obtain ⟨shown, same, least, value⟩ := exists_column_unwrap (not_not.mp first) found
    rw [same]
    refine ⟨rfl, rfl, fun other => absurd other kept, fun other _ here => ?_⟩
    obtain rfl : column = other := Option.some.inj (found.symm.trans here)
    have one : 1 < UInt64.size := by decide
    have fits : column < UInt64.size → shown < UInt64.size := by split at value <;> omega
    exact ⟨shown, rfl, least, fits, value⟩

/-- On the first line the head is taken off, and below it nothing is. -/
theorem unwrapped_two_lines :
    1 ≤ ['a', ';', '\n', 'b'].length ∧ 3 ≤ ['a', ';', '\n', 'b'].length ∧
      unwrap ⟨"/w/a.js", some 1, some 31⟩ = ⟨"/w/a.js", some 1, some 2⟩ ∧
      unwrap ⟨"/w/a.js", some 2, some 1⟩ = ⟨"/w/a.js", some 2, some 1⟩ := by
  obtain ⟨_, inverts, _⟩ := unwrapping_inverts_wrapping
  exact ⟨by decide, by decide, inverts "/w/a.js" ['a', ';', '\n', 'b'] 1 (by decide),
    inverts "/w/a.js" ['a', ';', '\n', 'b'] 3 (by decide)⟩

end Isolate.Wrapper
