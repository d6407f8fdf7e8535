import Isolate.Proofs.Diagnostic.Frames

/-!
# The innermost frame of a trace

A trace tells frame by frame where a failure happened, the innermost one first. The path of a frame is
read back to the letter if there is no parenthesis in it. A parenthesis ends every frame, so that no path
with one is ever read off a trace; and a relative path may look like a place of the engine itself, or like
one of code that has no file.
-/

namespace Isolate.Diagnostic

/-- A trace below a headline: the innermost frame, and whatever follows it. -/
def trace (headline name : List Char) (path : Path) (line column : Nat) (rest : List Char) :
    List Char :=
  headline ++ "\n    at ".toList ++ name ++ [' '] ++ '(' :: written path.text.toList line column ++
    ')' :: rest

/-- Whether a place is taken for one of the engine itself. -/
def isNative (place : List Char) : Bool := (afterStart? "native".toList (bareName place)).isSome

theorem mem_of_afterStart? {start text rest : List Char} (read : afterStart? start text = some rest)
    {c : Char} (member : c ∈ rest) : c ∈ text := by
  rw [afterStart?_eq_some_iff.mp read]
  exact List.mem_append_right start member

theorem mem_of_mem_bareName {place : List Char} {c : Char} (member : c ∈ bareName place) :
    c ∈ place := by
  rw [bareName] at member
  cases read : (afterStart? "unknown at ".toList place).or (afterStart? "eval at ".toList place) with
  | none =>
    rw [read] at member
    exact member
  | some rest =>
    rw [read] at member
    rcases Option.or_eq_some_iff.mp read with known | ⟨_, known⟩
    · exact mem_of_afterStart? known member
    · exact mem_of_afterStart? known member

theorem mem_of_splitAtLastColon {text front back : List Char}
    (split : splitAtLastColon text = some (front, back)) {c : Char} (member : c ∈ front) :
    c ∈ text := by
  rw [(splitAtLastColon_eq_some_iff.mp split).1]
  exact List.mem_append_left _ member

/-- The place of a frame stands in the text that the frame is read off. -/
theorem mem_of_ofInside? {inside : List Char} {frame : Frame}
    (reads : Frame.ofInside? inside = some frame) {c : Char} (member : c ∈ frame.place) :
    c ∈ inside := by
  unfold Frame.ofInside? at reads
  obtain ⟨⟨front, column⟩, outer, reads⟩ := Option.bind_eq_some_iff.mp reads
  obtain ⟨⟨place, line⟩, inner, reads⟩ := Option.bind_eq_some_iff.mp reads
  dsimp only at reads inner
  split at reads
  · rw [← Option.some.inj reads] at member
    exact mem_of_splitAtLastColon outer (mem_of_splitAtLastColon inner (mem_of_mem_bareName member))
  · contradiction

/-- No frame of a text has a place with a parenthesis in it. -/
theorem isInside_of_mem_frames {text : List Char} {frame : Frame} (found : frame ∈ frames text) :
    ∀ c ∈ frame.place, isInside c := by
  induction text with
  | nil => contradiction
  | cons c rest ih =>
    by_cases opens : c = '('
    · subst opens
      rw [frames_paren, List.mem_append] at found
      rcases found with found | found
      · unfold opened at found
        split at found
        · intro c member
          exact List.all_eq_true.mp List.all_takeWhile c
            (mem_of_ofInside? (Option.mem_toList.mp found) member)
        · contradiction
      · exact ih found
    · rw [frames_of_ne opens] at found
      exact ih found

/-- The label of a failure is that of the unit that was run, or it has no parenthesis in it. -/
theorem label_runtimeLocation (text : List Char) (origin : String) :
    (runtimeLocation text origin).label = origin ∨
      ∀ c ∈ (runtimeLocation text origin).label.toList, isInside c := by
  unfold runtimeLocation
  split
  next location found =>
    obtain ⟨frame, member, located⟩ := List.exists_of_findSome?_eq_some found
    have label : location.label = frame.label origin := by
      unfold Frame.location? at located
      split at located
      · contradiction
      · split at located
        · rw [← Option.some.inj located]
        · contradiction
    rw [label, Frame.label]
    split
    · right
      rw [String.toList_ofList]
      exact isInside_of_mem_frames member
    · exact .inl rfl
  next =>
    unfold compileLocation
    split
    · exact .inl rfl
    · split <;> exact .inl rfl

variable {headline name : List Char} {path : Path} {line column : Nat}

/-- The frame of a path without a parenthesis is the first one of its trace. -/
theorem frames_trace (plain : '(' ∉ headline) (named : '(' ∉ name)
    (clear : ∀ c ∈ path.text.toList, isInside c) (line column : Nat) (rest : List Char) :
    frames (trace headline name path line column rest) =
      ⟨bareName path.text.toList, Nat.toDigits 10 line, Nat.toDigits 10 column⟩ :: frames rest := by
  have front : frames (headline ++ "\n    at ".toList ++ name ++ [' ']) = [] := by
    rw [List.append_assoc, List.append_assoc, frames_append_of_plain plain,
      frames_append_of_plain (by decide), frames_append_of_plain named]
    rfl
  rw [trace, frames_append_frame (isInside_written clear line column) (ofInside?_written _ _ _), front,
    List.nil_append]

/-- The place of a frame that is not one of the engine is where it says. -/
theorem location?_of_not_native {place : List Char} (user : ¬isNative place)
    (lines : line ≤ Text.maxWord) (columns : column ≤ Text.maxWord) (origin : String) :
    Frame.location? ⟨bareName place, Nat.toDigits 10 line, Nat.toDigits 10 column⟩ origin =
      some ⟨if (bareName place).head? = some '/' then String.ofList (bareName place) else origin,
        some line, some column⟩ := by
  rw [isNative] at user
  unfold Frame.location?
  dsimp only
  rw [if_neg user, Text.word?_toDigits lines, Text.word?_toDigits columns, Frame.label]

/-- An absolute path is nothing but a path. -/
theorem bareName_of_absolute (absolute : path.isAbsolute) :
    bareName path.text.toList = path.text.toList ∧ ¬isNative path.text.toList := by
  obtain ⟨rest, rooted⟩ := List.head?_eq_some_iff.mp (beq_iff_eq.mp absolute)
  rw [rooted]
  exact ⟨rfl, Bool.false_ne_true⟩

/-- The innermost frame of a trace says where a failure happened, if its path has no parenthesis in it:
with the path itself as the label if the path is absolute, and otherwise with the unit that was run as the
label, if the path begins neither like a place of the engine nor with words for code without a file. A
frame that is taken for one of the engine gives way to those behind it. A path with a parenthesis in it is
never the label, unless it is the unit that was run. -/
theorem innermost_frame_names_its_unit (plain : '(' ∉ headline) (named : '(' ∉ name)
    (lines : line ≤ Text.maxWord) (columns : column ≤ Text.maxWord) (path : Path) (rest : List Char)
    (origin : String) :
    let location := runtimeLocation (trace headline name path line column rest) origin
    let bare := bareName path.text.toList
    ((∀ c ∈ path.text.toList, isInside c) →
        (path.isAbsolute → location = ⟨path.text, some line, some column⟩) ∧
          (¬path.isAbsolute → bare = path.text.toList → ¬isNative path.text.toList →
            location = ⟨origin, some line, some column⟩) ∧
          (¬isNative path.text.toList → location =
            ⟨if bare.head? = some '/' then String.ofList bare else origin, some line, some column⟩) ∧
          (isNative path.text.toList → location =
            ((frames rest).findSome? (·.location? origin)).getD
              (compileLocation (trace headline name path line column rest) origin))) ∧
      ((∃ c ∈ path.text.toList, ¬isInside c) → path.text ≠ origin → location.label ≠ path.text) := by
  intro location bare
  refine ⟨fun clear => ?_, fun ⟨c, member, outside⟩ other same => ?_⟩
  · have first := frames_trace plain named clear line column rest
    have user (user : ¬isNative path.text.toList) : location =
        ⟨if bare.head? = some '/' then String.ofList bare else origin, some line, some column⟩ := by
      change runtimeLocation _ _ = _
      unfold runtimeLocation
      rw [first, List.findSome?_cons, location?_of_not_native user lines columns]
    refine ⟨fun absolute => ?_, fun relative whole notNative => ?_, user, fun native => ?_⟩
    · obtain ⟨whole, notNative⟩ := bareName_of_absolute absolute
      rw [Path.isAbsolute, beq_iff_eq] at absolute
      rw [user notNative, show bare = path.text.toList from whole, if_pos absolute,
        String.ofList_toList]
    · rw [Path.isAbsolute, beq_iff_eq] at relative
      rw [user notNative, whole, if_neg relative]
    · have skipped : Frame.location?
          ⟨bareName path.text.toList, Nat.toDigits 10 line, Nat.toDigits 10 column⟩ origin = none :=
        if_pos native
      change runtimeLocation _ _ = _
      unfold runtimeLocation
      rw [first, List.findSome?_cons, skipped]
      dsimp only
      cases (frames rest).findSome? (·.location? origin) <;> rfl
  · rcases label_runtimeLocation (trace headline name path line column rest) origin with own | clear
    · exact other (same.symm.trans own)
    · have member' : c ∈ location.label.toList := same ▸ member
      exact outside (clear c member')

/-- A frame of another file goes before that of the root. -/
theorem innermost_frame_of_file :
    runtimeLocation (trace "Error: boom".toList "f".toList ⟨"/w/a 1:2.mjs"⟩ 3 4
      "\n    at <main> (/w/index.mjs:1:1)".toList) "/w/index.mjs" =
        ⟨"/w/a 1:2.mjs", some 3, some 4⟩ := by
  have plain : '(' ∉ "Error: boom".toList := by decide
  have named : '(' ∉ "f".toList := by decide
  have line : 3 ≤ Text.maxWord := by decide
  have column : 4 ≤ Text.maxWord := by decide
  obtain ⟨clear, _⟩ := innermost_frame_names_its_unit plain named line column ⟨"/w/a 1:2.mjs"⟩
    "\n    at <main> (/w/index.mjs:1:1)".toList "/w/index.mjs"
  obtain ⟨absolute, _⟩ := clear (List.all_eq_true.mp (by decide))
  exact absolute (by decide)

/-- Neither every absolute path nor every relative one is found in its frame: not `/w/a(1).mjs`, and not
`native.js`. -/
theorem innermost_frame_can_be_missed :
    (¬∀ (headline name rest : List Char) (path : Path) (line column : Nat) (origin : String),
        '(' ∉ headline → line ≤ Text.maxWord → column ≤ Text.maxWord → path.isAbsolute →
          runtimeLocation (trace headline name path line column rest) origin =
            ⟨path.text, some line, some column⟩) ∧
      ¬∀ (headline name rest : List Char) (path : Path) (line column : Nat) (origin : String),
        '(' ∉ headline → line ≤ Text.maxWord → column ≤ Text.maxWord → ¬path.isAbsolute →
          runtimeLocation (trace headline name path line column rest) origin =
            ⟨origin, some line, some column⟩ := by
  refine ⟨fun found => ?_, fun found => ?_⟩
  · have located := found "Error: boom".toList "f".toList "\n    at <main> (/w/index.mjs:1:1)".toList
      ⟨"/w/a(1).mjs"⟩ 3 4 "/w/index.mjs" (by decide) (by decide) (by decide) (by decide)
    exact absurd located (by decide)
  · have located := found "Error: boom".toList "f".toList [] ⟨"native.js"⟩ 3 4 "native.js" (by decide)
      (by decide) (by decide) (by decide)
    exact absurd located (by decide)

end Isolate.Diagnostic
