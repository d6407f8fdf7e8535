import Isolate.Proofs.Diagnostic.Frames

/-!
# The first usable frame of a stack

A stack is written below a headline, one frame to a line, and is read back frame by frame. Frames of the
engine and frames whose numbers are no numbers of 64 bits in ASCII digits are passed over wherever they
stand; the first of the others says where the failure happened, and without one a parser position does.
-/

namespace Isolate.Diagnostic

/-- The words in front of the place of code without a file. -/
def pathless : List Char := "unknown at ".toList

/-- How the place of a frame may be written. -/
inductive IsPlace : List Char → Prop
  /-- A file, by its absolute path. -/
  | absolute (path : List Char) : IsPlace ('/' :: path)
  /-- Anything else that names code of the worker. -/
  | relative {name : List Char} (rooted : name.head? ≠ some '/') (user : ¬"native".toList <+: name)
      (known : ¬pathless <+: name) (fixed : ¬"eval at ".toList <+: name) : IsPlace name
  /-- Code without a file. -/
  | pathless : IsPlace pathless
  /-- The engine itself. -/
  | native (rest : List Char) : IsPlace ("native".toList ++ rest)

/-- One frame of a stack: what its line says in front of the parenthesis, and the place, the line and the
column between parentheses. The numbers are written in digits of any script. -/
structure StackFrame where
  name : List Char
  place : List Char
  line : List Char
  column : List Char
  name_clear : ∀ c ∈ name, isInside c
  place_clear : ∀ c ∈ place, isInside c
  isPlace : IsPlace place
  line_numeral : isNumeral line
  column_numeral : isNumeral column

/-- Whether digits are the ASCII digits of a number of 64 bits. -/
def IsWord (digits : List Char) : Prop :=
  (∀ c ∈ digits, c.isDigit) ∧ Nat.ofDigitChars 10 digits 0 ≤ Text.maxWord

instance (digits : List Char) : Decidable (IsWord digits) :=
  decidable_of_iff (digits.all Char.isDigit ∧ Nat.ofDigitChars 10 digits 0 ≤ Text.maxWord)
    (and_congr_left' List.all_eq_true)

namespace StackFrame

def text (frame : StackFrame) : List Char :=
  frame.name ++ '(' :: (frame.place ++ ':' :: frame.line ++ ':' :: frame.column) ++ [')']

def read (frame : StackFrame) : Frame := ⟨bareName frame.place, frame.line, frame.column⟩

/-- A frame that says where in user code a failure happened. -/
def IsUsable (frame : StackFrame) : Prop :=
  ¬"native".toList <+: frame.place ∧ IsWord frame.line ∧ IsWord frame.column

instance (frame : StackFrame) : Decidable frame.IsUsable := inferInstanceAs (Decidable (_ ∧ _))

/-- The place that a frame says. -/
def location (frame : StackFrame) (origin : String) : Location where
  label := if frame.place.head? = some '/' then String.ofList frame.place else origin
  line := some (Nat.ofDigitChars 10 frame.line 0)
  column := some (Nat.ofDigitChars 10 frame.column 0)

end StackFrame

/-- A stack below a headline. -/
def report (headline : List Char) (stack : List StackFrame) : List Char :=
  headline ++ stack.flatMap fun frame => '\n' :: frame.text

/-- A stack is read back frame by frame. -/
theorem frames_report {headline : List Char} (plain : '(' ∉ headline) (stack : List StackFrame) :
    frames (report headline stack) =
      stack.map StackFrame.read := by
  rw [report, frames_append_of_plain plain]
  induction stack with
  | nil => rfl
  | cons frame stack ih =>
    have plain : '(' ∉ '\n' :: frame.name := fun member => by
      rcases List.mem_cons.mp member with same | member
      · contradiction
      · exact nomatch frame.name_clear _ member
    have front : frames ('\n' :: frame.name) = [] := by
      have nothing := frames_append_of_plain plain []
      rwa [List.append_nil] at nothing
    have reads := ofInside?_append frame.place frame.line_numeral frame.column_numeral
    have clear := isInside_append frame.place_clear frame.line_numeral frame.column_numeral
    have split : (frame :: stack).flatMap (fun frame => '\n' :: frame.text) =
        ('\n' :: frame.name) ++
          '(' :: (frame.place ++ ':' :: frame.line ++ ':' :: frame.column) ++
            ')' :: stack.flatMap fun frame => '\n' :: frame.text := by
      simp [StackFrame.text]
    rw [split, frames_append_frame clear reads, front, ih, List.map_cons, List.nil_append,
      StackFrame.read]

theorem afterStart?_isSome {start text : List Char} :
    (afterStart? start text).isSome ↔ start <+: text := by
  rw [Option.isSome_iff_exists]
  exact exists_congr fun rest => afterStart?_eq_some_iff.trans eq_comm

theorem afterStart?_eq_none {start text : List Char} (apart : ¬start <+: text) :
    afterStart? start text = none := by
  rwa [← Option.not_isSome_iff_eq_none, afterStart?_isSome]

theorem bareName_of_plain {place : List Char} (known : ¬pathless <+: place)
    (fixed : ¬"eval at ".toList <+: place) : bareName place = place := by
  rw [bareName, show afterStart? "unknown at ".toList place = none from afterStart?_eq_none known,
    afterStart?_eq_none fixed]
  rfl

/-- Of a place all is kept, but for the words for code without a file, which leave nothing. -/
theorem IsPlace.bareName_cases {place : List Char} (h : IsPlace place) :
    bareName place = place ∨ place = Diagnostic.pathless ∧ bareName place = [] := by
  cases h with
  | absolute path => exact .inl rfl
  | relative _ _ known fixed => exact .inl (bareName_of_plain known fixed)
  | pathless => exact .inr ⟨rfl, rfl⟩
  | native rest => exact .inl rfl

theorem word?_of_isWord {digits : List Char} (numeral : isNumeral digits) (word : IsWord digits) :
    Text.word? digits = some (Nat.ofDigitChars 10 digits 0) := by
  have some : digits ≠ [] := by
    rintro rfl
    contradiction
  exact Text.word?_eq_some_iff.mpr ⟨some, word.1, rfl, word.2⟩

theorem word?_of_not_isWord {digits : List Char} (not : ¬IsWord digits) :
    Text.word? digits = none := by
  refine Option.eq_none_iff_forall_ne_some.mpr fun n read => not ?_
  obtain ⟨_, digit, rfl, small⟩ := Text.word?_eq_some_iff.mp read
  exact ⟨digit, small⟩

namespace StackFrame

variable (frame : StackFrame) (origin : String)

theorem isNative_read : (afterStart? "native".toList frame.read.place).isSome ↔
    "native".toList <+: frame.place := by
  rw [afterStart?_isSome, read]
  dsimp only
  rcases frame.isPlace.bareName_cases with same | ⟨known, bare⟩
  · rw [same]
  · rw [bare, known]
    decide

theorem label_read : frame.read.label origin = (frame.location origin).label := by
  rw [Frame.label, location, read]
  rcases frame.isPlace.bareName_cases with same | ⟨known, bare⟩
  · rw [same]
  · rw [bare, known]
    rfl

variable {frame}

/-- A usable frame has the location that is written. -/
theorem location?_of_isUsable (usable : frame.IsUsable) :
    frame.read.location? origin = some (frame.location origin) := by
  obtain ⟨user, lines, columns⟩ := usable
  have line : Text.word? frame.read.line = _ := word?_of_isWord frame.line_numeral lines
  have column : Text.word? frame.read.column = _ := word?_of_isWord frame.column_numeral columns
  unfold Frame.location?
  rw [if_neg (mt frame.isNative_read.mp user), line, column, frame.label_read]
  rfl

/-- Any other frame has none. -/
theorem location?_of_not_isUsable (unusable : ¬frame.IsUsable) :
    frame.read.location? origin = none := by
  unfold Frame.location?
  by_cases engine : "native".toList <+: frame.place
  · rw [if_pos (frame.isNative_read.mpr engine)]
  rw [if_neg (mt frame.isNative_read.mp engine)]
  by_cases lines : IsWord frame.line
  · have columns : ¬IsWord frame.column := fun columns => unusable ⟨engine, lines, columns⟩
    rw [show Text.word? frame.read.column = none from word?_of_not_isWord columns]
    cases Text.word? frame.read.line <;> rfl
  · rw [show Text.word? frame.read.line = none from word?_of_not_isWord lines]

end StackFrame

/-- What is not usable is passed over. -/
theorem findSome?_of_not_isUsable {stack : List StackFrame} (none : ∀ frame ∈ stack, ¬frame.IsUsable)
    (origin : String) : (stack.map StackFrame.read).findSome? (·.location? origin) = Option.none := by
  rw [List.findSome?_map, List.findSome?_eq_none_iff]
  exact fun frame member => StackFrame.location?_of_not_isUsable origin (none frame member)

/-- Below a headline without a parenthesis the first usable frame of a stack says where a failure
happened; if no frame is usable, a parser position does. -/
theorem first_usable_frame_wins {headline : List Char} (plain : '(' ∉ headline)
    (stack : List StackFrame) (origin : String) :
    (∀ before frame after, stack = before ++ frame :: after → (∀ f ∈ before, ¬f.IsUsable) →
        frame.IsUsable → runtimeLocation (report headline stack) origin = frame.location origin) ∧
      ((∀ frame ∈ stack, ¬frame.IsUsable) →
        runtimeLocation (report headline stack) origin =
          compileLocation (report headline stack) origin) := by
  constructor
  · rintro before frame after rfl none usable
    unfold runtimeLocation
    rw [frames_report plain, List.map_append, List.map_cons, List.findSome?_append,
      findSome?_of_not_isUsable none, Option.none_or, List.findSome?_cons,
      StackFrame.location?_of_isUsable origin usable]
  · intro none
    unfold runtimeLocation
    rw [frames_report plain, findSome?_of_not_isUsable none]

/-- A frame of the engine, one with a line of more than 64 bits, and one with a digit that is not
ASCII. -/
def uselessFrames : List StackFrame := [
  ⟨"    at f ".toList, "native at src/lib.rs".toList, "10".toList, "4".toList,
    List.all_eq_true.mp (by decide), List.all_eq_true.mp (by decide), .native " at src/lib.rs".toList,
    by decide, by decide⟩,
  ⟨"    at g ".toList, "/w/a.mjs".toList, "18446744073709551616".toList, "1".toList,
    List.all_eq_true.mp (by decide), List.all_eq_true.mp (by decide), .absolute "w/a.mjs".toList,
    by decide, by decide⟩,
  ⟨"    at h ".toList, "/w/b.mjs".toList, "٣".toList, "2".toList, List.all_eq_true.mp (by decide),
    List.all_eq_true.mp (by decide), .absolute "w/b.mjs".toList, by decide, by decide⟩]

def usableFrame : StackFrame :=
  ⟨"    at <main> ".toList, "/w/c 1:2.mjs".toList, "007".toList, "18446744073709551615".toList,
    List.all_eq_true.mp (by decide), List.all_eq_true.mp (by decide), .absolute "w/c 1:2.mjs".toList,
    by decide, by decide⟩

/-- Three frames that are of no use give way to the fourth. -/
theorem first_usable_frame_of_mixed :
    runtimeLocation (report "Error: boom".toList (uselessFrames ++ [usableFrame])) "/w/index.mjs" =
      ⟨"/w/c 1:2.mjs", some 7, some 18446744073709551615⟩ := by
  have plain : '(' ∉ "Error: boom".toList := by decide
  have first := (first_usable_frame_wins plain (uselessFrames ++ [usableFrame]) "/w/index.mjs").1
    uselessFrames usableFrame [] rfl (by decide) (by decide)
  exact first.trans (by decide)

end Isolate.Diagnostic
