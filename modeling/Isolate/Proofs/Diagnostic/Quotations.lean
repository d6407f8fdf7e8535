import Isolate.Proofs.Diagnostic.Frames

/-!
# What a message can quote

A diagnostic begins with words that the worker chooses, and what they quote is read first: a frame in the
message goes before the frames of the stack, and a parser position in it before the one that the message
ends with. A message that quotes neither moves no location, and one that does is followed.
-/

namespace Isolate.Diagnostic

/-- A text quotes a frame: a place, a line and a column stand in it between parentheses. -/
def Quotes (text : List Char) (frame : Frame) : Prop :=
  ∃ front place back, text = front ++
      '(' :: (place ++ ':' :: frame.line ++ ':' :: frame.column) ++ ')' :: back ∧
    (∀ c ∈ place, isInside c) ∧ isNumeral frame.line ∧ isNumeral frame.column ∧
      frame.place = bareName place

theorem eq_append_of_ofInside? {inside : List Char} {frame : Frame}
    (reads : Frame.ofInside? inside = some frame) :
    ∃ place, inside = place ++ ':' :: frame.line ++ ':' :: frame.column ∧ isNumeral frame.line ∧
      isNumeral frame.column ∧ frame.place = bareName place := by
  unfold Frame.ofInside? at reads
  obtain ⟨⟨front, column⟩, outer, reads⟩ := Option.bind_eq_some_iff.mp reads
  obtain ⟨⟨place, line⟩, inner, reads⟩ := Option.bind_eq_some_iff.mp reads
  dsimp only at reads inner
  split at reads
  next numerals =>
    obtain rfl := Option.some.inj reads
    rw [Bool.and_eq_true] at numerals
    refine ⟨place, ?_, numerals.1, numerals.2, rfl⟩
    rw [(splitAtLastColon_eq_some_iff.mp outer).1, (splitAtLastColon_eq_some_iff.mp inner).1]
  next => contradiction

theorem quotes_of_mem_opened {rest : List Char} {frame : Frame} (found : frame ∈ opened rest) :
    Quotes ('(' :: rest) frame := by
  unfold opened at found
  split at found
  next closed =>
    obtain ⟨place, inside, lines, columns, bare⟩ :=
      eq_append_of_ofInside? (Option.mem_toList.mp found)
    cases behind : rest.dropWhile isInside with
    | nil =>
      rw [behind] at closed
      contradiction
    | cons c back =>
      rw [behind, List.head?_cons] at closed
      obtain rfl := Option.some.inj closed
      have whole := List.takeWhile_append_dropWhile (p := isInside) (l := rest)
      rw [behind, inside] at whole
      refine ⟨[], place, back, by rw [← whole]; simp, fun c member => ?_, lines, columns, bare⟩
      have within := List.all_eq_true.mp (List.all_takeWhile (p := isInside) (l := rest))
      rw [inside] at within
      exact within c (by simp [member])
  next => contradiction

/-- The frames that are read off a text are those that it quotes. -/
theorem mem_frames_iff {text : List Char} {frame : Frame} : frame ∈ frames text ↔ Quotes text frame := by
  constructor
  · intro found
    induction text with
    | nil => contradiction
    | cons c rest ih =>
      have later (found : frame ∈ frames rest) : Quotes (c :: rest) frame := by
        obtain ⟨front, place, back, same, kept⟩ := ih found
        exact ⟨c :: front, place, back, by rw [same]; rfl, kept⟩
      by_cases opens : c = '('
      · subst opens
        rw [frames_paren, List.mem_append] at found
        exact found.elim quotes_of_mem_opened later
      · rw [frames_of_ne opens] at found
        exact later found
  · rintro ⟨front, place, back, rfl, clear, lines, columns, bare⟩
    have reads := ofInside?_append place lines columns
    rw [← bare] at reads
    rw [frames_append_frame (isInside_append clear lines columns) reads]
    exact List.mem_append_right _ List.mem_cons_self

/-- The location of the first frame of user code that a text quotes. -/
def quoted? (text : List Char) (origin : String) : Option Location :=
  (frames text).findSome? (·.location? origin)

theorem quoted?_eq_none_iff {text : List Char} {origin : String} :
    quoted? text origin = none ↔ ∀ frame, Quotes text frame → frame.location? origin = none := by
  rw [quoted?, List.findSome?_eq_none_iff]
  exact forall_congr' fun frame => by rw [mem_frames_iff]

/-- A message in front of a stack, as far as the first parenthesis that the stack opens. -/
def preamble (message stack : List Char) : List Char := message ++ '\n' :: stack.takeWhile (· ≠ '(')

/-- A message and a stack below it are read one after the other. -/
theorem frames_message {message stack : List Char} (opens : '(' ∈ stack) :
    frames (message ++ '\n' :: stack) = frames (preamble message stack) ++ frames stack := by
  obtain ⟨front, back, rfl, plain⟩ := List.eq_append_cons_of_mem opens
  have taken : (front ++ '(' :: back).takeWhile (· ≠ '(') = front := by
    have all : ∀ c ∈ front, decide (c ≠ '(') := by
      intro c member
      apply decide_eq_true
      rintro rfl
      exact plain member
    rw [List.takeWhile_append_of_pos all]
    simp
  have split : message ++ '\n' :: (front ++ '(' :: back) =
      (message ++ '\n' :: front) ++ '(' :: back := by simp
  rw [preamble, taken, split, frames_append_paren, frames_append_of_plain plain]

/-- What a message quotes goes before a stack. -/
theorem runtimeLocation_message {stack : List Char} {origin : String} {here : Location}
    (located : quoted? stack origin = some here) (message : List Char) :
    runtimeLocation (message ++ '\n' :: stack) origin =
      (quoted? (preamble message stack) origin).getD here := by
  have opens : '(' ∈ stack := Decidable.byContradiction fun plain => by
    have none := frames_append_of_plain plain []
    rw [List.append_nil] at none
    rw [quoted?, none] at located
    contradiction
  rw [quoted?] at located ⊢
  unfold runtimeLocation
  rw [frames_message opens, List.findSome?_append, located]
  cases (frames (preamble message stack)).findSome? (·.location? origin) <;> rfl

/-- A text quotes a parser position. -/
def QuotesPosition (text : List Char) : Prop :=
  ∃ line full column, isNumeral line ∧ isNumeral column ∧ worded line full column <:+: text

/-- Behind the words of a position there may be anything. -/
theorem isSome_positionAtStart?_iff {text : List Char} :
    (positionAtStart? text).isSome ↔
      ∃ line full column, isNumeral line ∧ isNumeral column ∧ worded line full column <+: text := by
  rw [Option.isSome_iff_exists]
  constructor
  · rintro ⟨⟨line, column⟩, read⟩
    obtain ⟨lines, columns, full, rest, same, _⟩ := positionAtStart?_eq_some_iff.mp read
    exact ⟨line, full, column, lines, columns, rest, same.symm⟩
  · rintro ⟨line, full, column, lines, columns, rest, rfl⟩
    -- The second numeral goes on as long as there are digits.
    refine ⟨(line, column ++ rest.takeWhile Text.isDecimalDigit),
      positionAtStart?_eq_some_iff.mpr ⟨lines, ?_, full, rest.dropWhile Text.isDecimalDigit, ?_,
        fun c head => ?_⟩⟩
    · rw [isNumeral, Bool.and_eq_true] at columns ⊢
      rw [List.all_append, columns.2, List.all_takeWhile]
      exact ⟨by simpa using fun nothing => absurd columns.1 (by simp [nothing]), rfl⟩
    · simp [worded]
    · have stops := List.head?_dropWhile_not Text.isDecimalDigit rest
      rw [head] at stops
      exact stops

/-- A position is found in a text if the text quotes one. -/
theorem firstPosition?_eq_none_iff {text : List Char} :
    firstPosition? text = none ↔ ¬QuotesPosition text := by
  induction text with
  | nil =>
    refine iff_of_true rfl ?_
    rintro ⟨line, full, column, _, _, within⟩
    have nothing := List.infix_nil.mp within
    contradiction
  | cons c rest ih =>
    have here : QuotesPosition (c :: rest) ↔
        (positionAtStart? (c :: rest)).isSome ∨ QuotesPosition rest := by
      simp only [isSome_positionAtStart?_iff, QuotesPosition, List.infix_cons_iff]
      constructor
      · rintro ⟨line, full, column, lines, columns, starts | within⟩
        · exact .inl ⟨line, full, column, lines, columns, starts⟩
        · exact .inr ⟨line, full, column, lines, columns, within⟩
      · rintro (⟨line, full, column, lines, columns, starts⟩ | ⟨line, full, column, lines, columns, within⟩)
        · exact ⟨line, full, column, lines, columns, .inl starts⟩
        · exact ⟨line, full, column, lines, columns, .inr within⟩
    rw [firstPosition?, here]
    cases positionAtStart? (c :: rest) with
    | some position => exact iff_of_false (Option.some_ne_none _) fun none => none (.inl rfl)
    | none => exact ih.trans (not_congr (by simp))

theorem notMem_worded {line column : List Char} (lines : isNumeral line) (columns : isNumeral column)
    (full : Bool) : 'a' ∉ worded line full column := by
  have inLine := notMem_of_isNumeral (c := 'a') (by decide) lines
  have inColumn := notMem_of_isNumeral (c := 'a') (by decide) columns
  cases full <;> simp [worded, inLine, inColumn]

theorem isDecimalDigit_of_getLast?_worded {line column : List Char} (columns : isNumeral column)
    (full : Bool) {c : Char} (last : (worded line full column).getLast? = some c) :
    Text.isDecimalDigit c := by
  rw [isNumeral, Bool.and_eq_true, List.all_eq_true] at columns
  have some : column ≠ [] := by
    rintro rfl
    exact absurd columns.1 (by decide)
  have same : (worded line full column).getLast? = column.getLast? := by
    rw [worded, ← List.append_assoc, ← List.append_assoc, ← List.append_assoc, List.getLast?_append,
      Option.or_of_isSome (by simp [some])]
  exact columns.2 c (List.mem_of_getLast? (same.symm.trans last))

/-- No position runs on into the words in front of the one that a message ends with. -/
theorem positionAtStart?_append (front rest : List Char) :
    positionAtStart? (front ++ (" at ".toList ++ rest)) = positionAtStart? front := by
  apply Option.ext
  rintro ⟨line, column⟩
  rw [positionAtStart?_eq_some_iff, positionAtStart?_eq_some_iff]
  refine and_congr_right fun lines => and_congr_right fun columns => exists_congr fun full => ?_
  constructor
  · rintro ⟨back, same, stops⟩
    rcases List.append_eq_append_iff.mp same with ⟨rest', whole, begun⟩ | ⟨rest', whole, begun⟩
    · -- The position ends in the words, which is only so if it ends in front of them.
      rcases rest' with _ | ⟨c, _ | ⟨d, more⟩⟩
      · exact ⟨[], by rw [List.append_nil, whole, List.append_nil], nofun⟩
      · obtain rfl : ' ' = c := (List.cons.inj begun).1
        have digit := isDecimalDigit_of_getLast?_worded (c := ' ') columns full (by rw [whole]; simp)
        exact absurd digit (by decide)
      · obtain rfl : 'a' = d := (List.cons.inj (List.cons.inj begun).2).1
        exact absurd (by rw [whole]; simp) (notMem_worded lines columns full)
    · refine ⟨rest', whole, fun c head => stops c ?_⟩
      rw [begun, List.head?_append, head]
      rfl
  · rintro ⟨back, rfl, stops⟩
    refine ⟨back ++ (" at ".toList ++ rest), by rw [List.append_assoc], fun c head => ?_⟩
    cases back with
    | nil =>
      obtain rfl := Option.some.inj head
      decide
    | cons d back => exact stops c head

/-- A position in a message goes before the one that the message ends with. -/
theorem firstPosition?_message (message rest : List Char) :
    firstPosition? (message ++ (" at ".toList ++ rest)) =
      (firstPosition? message).or (firstPosition? (" at ".toList ++ rest)) := by
  induction message with
  | nil => rfl
  | cons c message ih =>
    have here := positionAtStart?_append (c :: message) rest
    rw [List.cons_append] at here ⊢
    rw [firstPosition?, firstPosition?, here, ih]
    cases positionAtStart? (c :: message) <;> rfl

/-- What a message quotes goes before the position that it ends with. -/
theorem compileLocation_message {line column : Nat} (lines : line ≤ Text.maxWord)
    (columns : column ≤ Text.maxWord) (message : List Char) (origin : String) :
    compileLocation (message ++ (" at ".toList ++ position line column)) origin =
      if (firstPosition? message).isSome then compileLocation message origin
      else ⟨origin, some line, some column⟩ := by
  have clear : ∀ c ∈ " at ".toList, c ≠ 'l' := by simp
  have own := compileLocation_append clear lines columns origin
  cases quoted : firstPosition? message with
  | none =>
    unfold compileLocation at own ⊢
    rw [firstPosition?_message, quoted]
    exact own
  | some first =>
    unfold compileLocation
    rw [firstPosition?_message, quoted]
    rfl

/-- A stack is located, in whatever message stands above it, exactly as by itself if the message quotes no
frame of user code, and two messages move it to the same place exactly if the first frames of user code
that they quote, the stack's own if there is none, are at one place. The position that a message ends with
is read exactly if the message quotes no other one first, or one that is the same. -/
theorem quotations_alone_move_locations (origin : String) :
    (∀ (stack : List Char) (here : Location), quoted? stack origin = some here →
        (∀ message, (∀ frame, Quotes (preamble message stack) frame → frame.location? origin = none) →
            runtimeLocation (message ++ '\n' :: stack) origin = here) ∧
          ∀ message message',
            runtimeLocation (message ++ '\n' :: stack) origin =
                runtimeLocation (message' ++ '\n' :: stack) origin ↔
              (quoted? (preamble message stack) origin).getD here =
                (quoted? (preamble message' stack) origin).getD here) ∧
      ∀ (message : List Char) (line column : Nat), line ≤ Text.maxWord → column ≤ Text.maxWord →
        (compileLocation (message ++ (" at ".toList ++ position line column)) origin =
            ⟨origin, some line, some column⟩ ↔
          (QuotesPosition message →
            compileLocation message origin = ⟨origin, some line, some column⟩)) := by
  refine ⟨fun stack here located => ⟨fun message none => ?_, fun message message' => ?_⟩,
    fun message line column lines columns => ?_⟩
  · rw [runtimeLocation_message located, quoted?_eq_none_iff.mpr none, Option.getD_none]
  · rw [runtimeLocation_message located, runtimeLocation_message located]
  · have quoted : (firstPosition? message).isSome ↔ QuotesPosition message := by
      rw [← Option.ne_none_iff_isSome, ne_eq, firstPosition?_eq_none_iff, Classical.not_not]
    rw [compileLocation_message lines columns]
    split
    next quotes => rw [forall_prop_of_true (quoted.mp quotes)]
    next silent => exact iff_of_true rfl fun quotes => absurd (quoted.mpr quotes) silent

/-- What quotes a file stays where the stack says, and `line 7` alone is no position. -/
theorem locations_of_silent_messages :
    runtimeLocation ("Error: see /w/other.mjs:7:9".toList ++
        '\n' :: "    at <main> (/w/index.mjs:1:1)".toList) "/w/index.mjs" =
          ⟨"/w/index.mjs", some 1, some 1⟩ ∧
      compileLocation ("SyntaxError: expected token ';', got 'line 7'".toList ++
        (" at ".toList ++ position 3 14)) "/w/index.mjs" = ⟨"/w/index.mjs", some 3, some 14⟩ := by
  obtain ⟨moved, ended⟩ := quotations_alone_move_locations "/w/index.mjs"
  have located : quoted? "    at <main> (/w/index.mjs:1:1)".toList "/w/index.mjs" =
      some ⟨"/w/index.mjs", some 1, some 1⟩ := by decide
  have silent : quoted? (preamble "Error: see /w/other.mjs:7:9".toList
      "    at <main> (/w/index.mjs:1:1)".toList) "/w/index.mjs" = none := by decide
  have none : firstPosition? "SyntaxError: expected token ';', got 'line 7'".toList = none := by decide
  refine ⟨(moved _ _ located).1 _ (quoted?_eq_none_iff.mp silent),
    (ended _ 3 14 (by decide) (by decide)).mpr fun quotes => ?_⟩
  exact absurd quotes (firstPosition?_eq_none_iff.mp none)

/-- Messages can move the place of one stack, and the position that a message ends with can be missed. -/
theorem quotations_move_locations :
    (¬∀ (message message' stack : List Char) (origin : String), '\n' ∉ message → '\n' ∉ message' →
        (quoted? stack origin).isSome →
          runtimeLocation (message ++ '\n' :: stack) origin =
            runtimeLocation (message' ++ '\n' :: stack) origin) ∧
      ¬∀ (message : List Char) (line column : Nat) (origin : String), line ≤ Text.maxWord →
        column ≤ Text.maxWord →
          compileLocation (message ++ (" at ".toList ++ position line column)) origin =
            ⟨origin, some line, some column⟩ := by
  refine ⟨fun alike => ?_, fun found => ?_⟩
  · have moved := alike "Error: see (/w/other.mjs:7:9)".toList "Error: boom".toList
      "    at <main> (/w/index.mjs:1:1)".toList "/w/index.mjs" (by decide) (by decide) (by decide)
    exact absurd moved (by decide)
  · have read := found "SyntaxError: expected token ';', got 'line 7, col 9'".toList 3 14 "/w/index.mjs"
      (by decide) (by decide)
    exact absurd read (by decide)

end Isolate.Diagnostic
