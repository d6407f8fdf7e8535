import Isolate.Diagnostic

/-!
# Frames and positions in diagnostic texts

A place that is written between parentheses is read back as it was written, and so is the position that a
parser message ends with. An opening parenthesis ends every frame that is begun in front of it, so that
the frames in front of one and those from it on are found apart, and the first one of user code in front
of it hides all that follow.
-/

namespace Isolate

namespace Text

theorem digitValue?_of_isDigit {c : Char} (digit : c.isDigit) :
    digitValue? c = some (c.toNat - '0'.toNat) := by
  rw [Char.isDigit, Bool.and_eq_true] at digit
  exact if_pos ⟨of_decide_eq_true digit.1, of_decide_eq_true digit.2⟩

theorem numeralFrom?_of_isDigit {digits : List Char} (all : ∀ c ∈ digits, c.isDigit) (value : Nat) :
    numeralFrom? value digits = some (Nat.ofDigitChars 10 digits value) := by
  induction digits generalizing value with
  | nil => rw [numeralFrom?, Nat.ofDigitChars_nil]
  | cons c digits ih =>
    rw [numeralFrom?, digitValue?_of_isDigit (all c List.mem_cons_self), Nat.ofDigitChars_cons]
    exact ih (fun c member => all c (List.mem_cons_of_mem _ member)) _

theorem isDigit_of_digitValue? {c : Char} {value : Nat} (read : digitValue? c = some value) :
    c.isDigit := by
  rw [digitValue?] at read
  split at read
  next digit => exact Bool.and_eq_true_iff.mpr ⟨decide_eq_true digit.1, decide_eq_true digit.2⟩
  next => contradiction

theorem isDigit_of_numeralFrom? {digits : List Char} {value n : Nat}
    (read : numeralFrom? value digits = some n) : ∀ c ∈ digits, c.isDigit := by
  induction digits generalizing value with
  | nil => exact fun _ member => nomatch member
  | cons c digits ih =>
    rw [numeralFrom?] at read
    split at read
    next digit known =>
      intro d member
      rcases List.mem_cons.mp member with rfl | member
      · exact isDigit_of_digitValue? known
      · exact ih read d member
    next => contradiction

/-- A number is read off ASCII digits, and it is their value if that has 64 bits. -/
theorem word?_eq_some_iff {digits : List Char} {n : Nat} :
    word? digits = some n ↔ digits ≠ [] ∧ (∀ c ∈ digits, c.isDigit) ∧
      Nat.ofDigitChars 10 digits 0 = n ∧ n ≤ maxWord := by
  cases digits with
  | nil => exact iff_of_false nofun fun h => h.1 rfl
  | cons c rest =>
    constructor
    · intro read
      rw [word?, numeral?] at read
      split at read
      next value known =>
        split at read
        next small =>
          obtain rfl := Option.some.inj read
          have digit := isDigit_of_numeralFrom? known
          rw [numeralFrom?_of_isDigit digit] at known
          exact ⟨List.cons_ne_nil c rest, digit, Option.some.inj known, small⟩
        next => contradiction
      next => contradiction
    · rintro ⟨_, digit, rfl, small⟩
      rw [word?, numeral?, numeralFrom?_of_isDigit digit]
      exact if_pos small

theorem isDigit_of_mem_toDigits {n : Nat} {c : Char} (member : c ∈ Nat.toDigits 10 n) : c.isDigit :=
  Nat.isDigit_of_mem_toDigits (by decide) (by decide) member

/-- A number of 64 bits is read back from its digits. -/
theorem word?_toDigits {n : Nat} (bound : n ≤ maxWord) : word? (Nat.toDigits 10 n) = some n :=
  word?_eq_some_iff.mpr
    ⟨Nat.toDigits_ne_nil, fun _ => isDigit_of_mem_toDigits, Nat.ofDigitChars_ten_toDigits, bound⟩

theorem isDecimalDigit_of_isDigit {c : Char} (digit : c.isDigit) : isDecimalDigit c := by
  have ascii : c.toNat < 128 := by
    rw [Char.isDigit, Bool.and_eq_true] at digit
    have last : c.val ≤ 57 := of_decide_eq_true digit.2
    have small : c.toNat ≤ 57 := last
    omega
  rw [isDecimalDigit, if_pos ascii]
  exact digit

end Text

namespace Diagnostic

theorem afterStart?_eq_some_iff {start text rest : List Char} :
    afterStart? start text = some rest ↔ text = start ++ rest := by
  induction start generalizing text with
  | nil => exact Option.some_inj
  | cons a start ih =>
    cases text with
    | nil => exact iff_of_false nofun nofun
    | cons b text =>
      rw [afterStart?, List.cons_append, List.cons.injEq]
      split
      next same => rw [ih, and_iff_right same.symm]
      next apart => exact iff_of_false nofun fun h => apart h.1.symm

def written (place : List Char) (line column : Nat) : List Char :=
  place ++ ':' :: Nat.toDigits 10 line ++ ':' :: Nat.toDigits 10 column

theorem splitAtLastColon_append (front : List Char) {back : List Char} (clear : ':' ∉ back) :
    splitAtLastColon (front ++ ':' :: back) = some (front, back) := by
  have all : ∀ c ∈ back.reverse, decide (c ≠ ':') := by
    intro c member
    apply decide_eq_true
    rintro rfl
    exact clear (List.mem_reverse.mp member)
  have turned : (front ++ ':' :: back).reverse = back.reverse ++ ':' :: front.reverse := by simp
  have dropped : (back.reverse ++ ':' :: front.reverse).dropWhile (· ≠ ':') = ':' :: front.reverse := by
    rw [List.dropWhile_append_of_pos all]
    simp
  have taken : (back.reverse ++ ':' :: front.reverse).takeWhile (· ≠ ':') = back.reverse := by
    rw [List.takeWhile_append_of_pos all]
    simp
  unfold splitAtLastColon
  dsimp only
  rw [turned, dropped, taken]
  simp

theorem splitAtLastColon_eq_some_iff {text front back : List Char} :
    splitAtLastColon text = some (front, back) ↔ text = front ++ ':' :: back ∧ ':' ∉ back := by
  constructor
  · intro read
    unfold splitAtLastColon at read
    dsimp only at read
    split at read
    next => contradiction
    next colon before dropped =>
      obtain ⟨rfl, rfl⟩ := Prod.mk.inj (Option.some.inj read)
      have stops := List.head?_dropWhile_not (· ≠ ':') text.reverse
      rw [dropped, List.head?_cons] at stops
      obtain rfl : colon = ':' := by simpa using stops
      have whole := List.takeWhile_append_dropWhile (p := (· ≠ ':')) (l := text.reverse)
      rw [dropped] at whole
      refine ⟨?_, fun member => ?_⟩
      · have turned := congrArg List.reverse whole
        rw [List.reverse_reverse, List.reverse_append, List.reverse_cons, List.append_assoc] at turned
        exact turned.symm
      · have last := List.all_eq_true.mp List.all_takeWhile _ (List.mem_reverse.mp member)
        contradiction
  · rintro ⟨rfl, clear⟩
    exact splitAtLastColon_append front clear

theorem isNumeral_toDigits (n : Nat) : isNumeral (Nat.toDigits 10 n) := by
  have all : (Nat.toDigits 10 n).all Text.isDecimalDigit :=
    List.all_eq_true.mpr fun c member =>
      Text.isDecimalDigit_of_isDigit (Text.isDigit_of_mem_toDigits member)
  simp [isNumeral, all]

theorem notMem_of_isNumeral {c : Char} (other : Text.isDecimalDigit c = false) {digits : List Char}
    (numeral : isNumeral digits) : c ∉ digits := fun member => by
  rw [isNumeral, Bool.and_eq_true] at numeral
  have digit := List.all_eq_true.mp numeral.2 c member
  rw [other] at digit
  contradiction

/-- A place and two numerals behind it, divided by colons, are a frame. -/
theorem ofInside?_append (place : List Char) {line column : List Char} (lines : isNumeral line)
    (columns : isNumeral column) :
    Frame.ofInside? (place ++ ':' :: line ++ ':' :: column) = some ⟨bareName place, line, column⟩ := by
  have outer : splitAtLastColon (place ++ ':' :: line ++ ':' :: column) =
      some (place ++ ':' :: line, column) :=
    splitAtLastColon_append _ (notMem_of_isNumeral (by decide) columns)
  have inner : splitAtLastColon (place ++ ':' :: line) = some (place, line) :=
    splitAtLastColon_append _ (notMem_of_isNumeral (by decide) lines)
  unfold Frame.ofInside?
  simp only [outer, inner, lines, columns, Option.bind_eq_bind, Option.bind_some, Bool.and_self,
    if_true]

theorem ofInside?_written (place : List Char) (line column : Nat) :
    Frame.ofInside? (written place line column) =
      some ⟨bareName place, Nat.toDigits 10 line, Nat.toDigits 10 column⟩ :=
  ofInside?_append place (isNumeral_toDigits line) (isNumeral_toDigits column)

/-- Whether a character can stand inside a frame. -/
def isInside (c : Char) : Bool := c ≠ '(' && c ≠ ')'

/-- The frame that a parenthesis opens, if one is closed behind it. -/
def opened (rest : List Char) : List Frame :=
  if (rest.dropWhile isInside).head? = some ')' then
    (Frame.ofInside? (rest.takeWhile isInside)).toList
  else []

theorem frames_paren (rest : List Char) : frames ('(' :: rest) = opened rest ++ frames rest := by
  have same : isInside = fun c => c ≠ '(' && c ≠ ')' := rfl
  rw [frames, if_pos rfl, opened, same]
  dsimp only
  split <;> rfl

theorem frames_of_ne {c : Char} (other : c ≠ '(') (rest : List Char) :
    frames (c :: rest) = frames rest := by rw [frames, if_neg other]

/-- A parenthesis that opens ends what was begun in front of it. -/
theorem opened_append (front back : List Char) : opened (front ++ '(' :: back) = opened front := by
  unfold opened
  -- Either the frame runs up to the parenthesis, which does not close it, or it has ended before.
  cases left : front.dropWhile isInside with
  | nil =>
    have stops : ('(' :: back).dropWhile isInside = '(' :: back := by simp [isInside]
    rw [List.dropWhile_append, left, List.isEmpty_nil, if_pos rfl, stops]
    simp
  | cons c rest =>
    have short : (front.takeWhile isInside).length ≠ front.length := by
      have whole := congrArg List.length (List.takeWhile_append_dropWhile (p := isInside) (l := front))
      rw [List.length_append, left, List.length_cons] at whole
      omega
    rw [List.dropWhile_append, left, List.takeWhile_append, if_neg short]
    simp

/-- The frames in front of a parenthesis that opens and those from it on are found apart. -/
theorem frames_append_paren (front back : List Char) :
    frames (front ++ '(' :: back) = frames front ++ frames ('(' :: back) := by
  induction front with
  | nil => rfl
  | cons c front ih =>
    rw [List.cons_append]
    by_cases opens : c = '('
    · subst opens
      rw [frames_paren, frames_paren front, opened_append, ih, List.append_assoc]
    · rw [frames_of_ne opens, frames_of_ne opens, ih]

/-- No frame begins in a text without a parenthesis that opens. -/
theorem frames_append_of_plain {front : List Char} (plain : '(' ∉ front) (back : List Char) :
    frames (front ++ back) = frames back := by
  induction front with
  | nil => rfl
  | cons c front ih =>
    obtain ⟨other, plain⟩ := List.ne_and_not_mem_of_not_mem_cons plain
    rw [List.cons_append, frames_of_ne (Ne.symm other), ih plain]

/-- What is written between parentheses is a frame of a text, after those in front of it and before those
behind it. -/
theorem frames_append_frame {front inside back : List Char} {frame : Frame}
    (clear : ∀ c ∈ inside, isInside c) (reads : Frame.ofInside? inside = some frame) :
    frames (front ++ '(' :: inside ++ ')' :: back) = frames front ++ frame :: frames back := by
  have closes : opened (inside ++ ')' :: back) = [frame] := by
    unfold opened
    rw [List.dropWhile_append_of_pos clear, List.takeWhile_append_of_pos clear]
    simp [isInside, reads]
  have plain : '(' ∉ inside := fun member => nomatch clear _ member
  rw [List.append_assoc, List.cons_append, frames_append_paren, frames_paren, closes,
    frames_append_of_plain plain, frames_of_ne (by decide)]
  rfl

/-- Neither a place without parentheses nor what stands behind it ends a frame. -/
theorem isInside_append {place line column : List Char} (clear : ∀ c ∈ place, isInside c)
    (lines : isNumeral line) (columns : isNumeral column) :
    ∀ c ∈ place ++ ':' :: line ++ ':' :: column, isInside c := by
  have digits {numeral : List Char} (h : isNumeral numeral) : ∀ c ∈ numeral, isInside c := by
    intro c member
    apply Bool.and_eq_true_iff.mpr
    constructor <;> apply decide_eq_true <;> rintro rfl <;>
      exact notMem_of_isNumeral (by decide) h member
  intro c member
  rw [List.append_assoc, List.cons_append, List.mem_append, List.mem_cons, List.mem_append,
    List.mem_cons] at member
  obtain inPlace | rfl | inLine | rfl | inColumn := member
  · exact clear c inPlace
  · rfl
  · exact digits lines c inLine
  · rfl
  · exact digits columns c inColumn

theorem isInside_written {place : List Char} (clear : ∀ c ∈ place, isInside c) (line column : Nat) :
    ∀ c ∈ written place line column, isInside c :=
  isInside_append clear (isNumeral_toDigits line) (isNumeral_toDigits column)

/-- A numeral is read up to a character that is no digit. -/
theorem digitsAtStart?_eq_some_iff {text digits rest : List Char} :
    digitsAtStart? text = some (digits, rest) ↔ isNumeral digits ∧ text = digits ++ rest ∧
      ∀ c, rest.head? = some c → Text.isDecimalDigit c = false := by
  unfold digitsAtStart?
  dsimp only
  constructor
  · intro read
    split at read
    next => contradiction
    next some =>
      obtain ⟨rfl, rfl⟩ := Prod.mk.inj (Option.some.inj read)
      refine ⟨?_, List.takeWhile_append_dropWhile.symm, fun c head => ?_⟩
      · rw [isNumeral, List.all_takeWhile, Bool.and_true]
        simpa using some
      · have stops := List.head?_dropWhile_not Text.isDecimalDigit text
        rw [head] at stops
        exact stops
  · rintro ⟨numeral, rfl, stops⟩
    rw [isNumeral, Bool.and_eq_true, List.all_eq_true] at numeral
    obtain ⟨some, digits⟩ := numeral
    have none : rest.takeWhile Text.isDecimalDigit = [] ∧
        rest.dropWhile Text.isDecimalDigit = rest := by
      cases rest with
      | nil => exact ⟨rfl, rfl⟩
      | cons c rest => simp [stops c rfl]
    rw [List.takeWhile_append_of_pos digits, List.dropWhile_append_of_pos digits, none.1, none.2,
      List.append_nil]
    exact if_neg (by simpa using some)

/-- A position as it is worded: the second of its two words is written short or in full. -/
def worded (line : List Char) (full : Bool) (column : List Char) : List Char :=
  "line ".toList ++ (line ++ (", col".toList ++ ((if full then "umn ".toList else " ".toList) ++ column)))

/-- A position is read off its words, and the second numeral up to a character that is no digit. -/
theorem positionAtStart?_eq_some_iff {text line column : List Char} :
    positionAtStart? text = some (line, column) ↔ isNumeral line ∧ isNumeral column ∧
      ∃ full rest, text = worded line full column ++ rest ∧
        ∀ c, rest.head? = some c → Text.isDecimalDigit c = false := by
  unfold positionAtStart?
  simp only [Option.bind_eq_bind, Option.bind_eq_some_iff, Prod.exists, Option.some.injEq,
    Prod.mk.injEq, afterStart?_eq_some_iff, digitsAtStart?_eq_some_iff, Option.or_eq_some_iff]
  constructor
  · rintro ⟨_, rfl, line', _, ⟨lines, rfl, _⟩, _, rfl, _, second, column', rest, ⟨columns, rfl, stops⟩,
      rfl, rfl⟩
    refine ⟨lines, columns, ?_⟩
    rcases second with rfl | ⟨_, rfl⟩
    · exact ⟨true, rest, by simp [worded], stops⟩
    · exact ⟨false, rest, by simp [worded], stops⟩
  · rintro ⟨lines, columns, full, rest, rfl, stops⟩
    refine ⟨_, by rw [worded, List.append_assoc], line, _, ⟨lines, by rw [List.append_assoc], ?_⟩, _,
      by rw [List.append_assoc], _, ?_, column, rest, ⟨columns, rfl, stops⟩, rfl, rfl⟩
    · rintro c head
      obtain rfl := Option.some.inj head
      decide
    · cases full with
      | true => exact .inl (by rw [List.append_assoc]; rfl)
      | false => exact .inr ⟨rfl, by rw [List.append_assoc]; rfl⟩

/-- No position begins in front of the first character that one begins with. -/
theorem firstPosition?_append {front : List Char} (clear : ∀ c ∈ front, c ≠ 'l') (rest : List Char) :
    firstPosition? (front ++ rest) = firstPosition? rest := by
  induction front with
  | nil => rfl
  | cons c front ih =>
    have other : 'l' ≠ c := (clear c List.mem_cons_self).symm
    have none : positionAtStart? (c :: front ++ rest) = none := by
      unfold positionAtStart?
      rw [show afterStart? "line ".toList (c :: front ++ rest) = none from if_neg other]
      rfl
    rw [List.cons_append] at none ⊢
    rw [firstPosition?, none]
    exact ih fun c member => clear c (List.mem_cons_of_mem _ member)

theorem firstPosition?_of_start {text : List Char} {position : List Char × List Char}
    (starts : positionAtStart? text = some position) : firstPosition? text = some position := by
  cases text with
  | nil => contradiction
  | cons c rest => rw [firstPosition?, starts]

/-- A parser position as it is written. -/
def position (line column : Nat) : List Char :=
  "line ".toList ++ (Nat.toDigits 10 line ++ (", col ".toList ++ Nat.toDigits 10 column))

theorem position_eq_worded (line column : Nat) :
    position line column = worded (Nat.toDigits 10 line) false (Nat.toDigits 10 column) := rfl

theorem positionAtStart?_position (line column : Nat) :
    positionAtStart? (position line column) =
      some (Nat.toDigits 10 line, Nat.toDigits 10 column) :=
  positionAtStart?_eq_some_iff.mpr ⟨isNumeral_toDigits line, isNumeral_toDigits column, false, [],
    by rw [List.append_nil, position_eq_worded], nofun⟩

/-- The position that a parser message ends with is read back as it was written. -/
theorem compileLocation_append {front : List Char} (clear : ∀ c ∈ front, c ≠ 'l') {line column : Nat}
    (lines : line ≤ Text.maxWord) (columns : column ≤ Text.maxWord) (label : String) :
    compileLocation (front ++ position line column) label = ⟨label, some line, some column⟩ := by
  unfold compileLocation
  rw [firstPosition?_append clear, firstPosition?_of_start (positionAtStart?_position line column)]
  dsimp only
  rw [Text.word?_toDigits lines, Text.word?_toDigits columns]

end Diagnostic
end Isolate
