import Isolate.Json.Printer
import Isolate.Script.Scanner

/-!
# What texts are read as

The tokens of a text are those of its parts, one behind the other: a blank is passed over, and a word, a
punctuator or a string in its quotation marks is one token, whatever stands before it.
-/

namespace Isolate

namespace Text

/-- A text that is one word. -/
def IsIdentifier (name : String) : Prop :=
  match name.toList with
  | [] => False
  | c :: rest => isIdentifierStart c ∧ rest.all isIdentifierPart

instance (name : String) : Decidable (IsIdentifier name) := by
  unfold IsIdentifier
  split
  · exact instDecidableFalse
  · exact instDecidableAnd

theorem isIdentifierPart_of_start {c : Char} (starts : isIdentifierStart c) :
    isIdentifierPart c := by
  rw [isIdentifierPart, starts, Bool.true_or]

/-- An identifier begins with a character that starts one, and all of its characters continue one. -/
theorem IsIdentifier.cases {name : String} (h : IsIdentifier name) :
    ∃ c rest, name.toList = c :: rest ∧ isIdentifierStart c ∧
      ∀ d ∈ name.toList, isIdentifierPart d := by
  unfold IsIdentifier at h
  split at h
  next => contradiction
  next c rest spelled =>
    refine ⟨c, rest, spelled, h.1, ?_⟩
    rw [spelled]
    intro d member
    rcases List.mem_cons.mp member with rfl | later
    · exact isIdentifierPart_of_start h.1
    · exact List.all_eq_true.mp h.2 d later

end Text

namespace Script.Scanner

/-- A character that nothing is passed over in front of. -/
def IsSolid (c : Char) : Prop := isLineEnd c = false ∧ isSpace c = false ∧ c ≠ '/'

def blankCodes : List Nat :=
  [0x9, 0xa, 0xb, 0xc, 0xd, 0x20, 0xa0, 0xfeff, 0x1680, 0x2000, 0x2001, 0x2002, 0x2003, 0x2004, 0x2005,
    0x2006, 0x2007, 0x2008, 0x2009, 0x200a, 0x2028, 0x2029, 0x202f, 0x205f, 0x3000]

theorem mem_blankCodes {c : Char} (blank : isLineEnd c = true ∨ isSpace c = true) :
    c.toNat ∈ blankCodes := by
  rcases blank with ends | space
  · rw [isLineEnd] at ends
    simp only [Bool.or_eq_true, beq_iff_eq] at ends
    rcases ends with ((rfl | rfl) | same) | same
    · decide
    · decide
    all_goals rw [same]; decide
  · rw [isSpace] at space
    simp only [Bool.or_eq_true, Bool.and_eq_true, beq_iff_eq, decide_eq_true_eq] at space
    simp only [blankCodes, List.mem_cons, List.not_mem_nil, or_false]
    omega

/-- No identifier starts with a blank or with a slash. -/
theorem isSolid_of_start {c : Char} (starts : Text.isIdentifierStart c) : IsSolid c := by
  have never : ∀ code ∈ blankCodes, Text.isIdentifierStart (Char.ofNat code) = false := by
    decide +kernel
  have apart (blank : isLineEnd c = true ∨ isSpace c = true) : False := by
    have clash := never _ (mem_blankCodes blank)
    rw [Char.ofNat_toNat, starts] at clash
    exact Bool.noConfusion clash
  refine ⟨?_, ?_, ?_⟩
  · exact Bool.eq_false_iff.mpr fun ends => apart (.inl ends)
  · exact Bool.eq_false_iff.mpr fun space => apart (.inr space)
  · rintro rfl
    have slash : Text.isIdentifierStart '/' = false := by decide +kernel
    rw [slash] at starts
    exact Bool.noConfusion starts

theorem rest_next {s : Scanner} {c : Char} {rest : List Char} (here : s.rest = c :: rest) :
    s.next.rest = rest := by
  rw [next.eq_def]
  split
  next none => rw [none] at here; contradiction
  next same =>
    rw [same] at here
    exact (List.cons.inj here).2

theorem rest_skip (n : Nat) (s : Scanner) : (s.skip n).rest = s.rest.drop n := by
  induction n generalizing s with
  | zero => rfl
  | succ n ih =>
    rw [skip, ih]
    cases here : s.rest with
    | nil =>
      have stays : s.next = s := by rw [next.eq_def, here]
      rw [stays, here, List.drop_nil, List.drop_nil]
    | cons c rest => rw [rest_next here, List.drop_succ_cons]

theorem skipBlanks_solid {s : Scanner} {c : Char} {rest : List Char} (here : s.rest = c :: rest)
    (solid : IsSolid c) (fuel : Nat) (newline : Bool) :
    skipBlanks (fuel + 1) newline false false s = some (newline, s) := by
  obtain ⟨line, space, slash⟩ := solid
  rw [skipBlanks, here]
  simp [line, space, slash]

theorem skipBlanks_nil {s : Scanner} (here : s.rest = []) (fuel : Nat) (newline : Bool) :
    skipBlanks (fuel + 1) newline false false s = some (newline, s) := by
  rw [skipBlanks, here]
  rfl

theorem skipBlanks_space {s : Scanner} {rest : List Char} (here : s.rest = ' ' :: rest)
    (fuel : Nat) (newline : Bool) :
    skipBlanks (fuel + 1) newline false false s = skipBlanks fuel newline false false s.next := by
  rw [skipBlanks, here]
  rfl

/-- The tokens that a text is read as, from whatever place on. -/
def Scans (text : List Char) (tokens : List Token) : Prop :=
  ∀ fuel s, s.rest = text → text.length < fuel → (tokensFrom fuel s).map Lexeme.token = tokens

theorem Scans.tokens {text : List Char} {tokens : List Token} (h : Scans text tokens) :
    (Scanner.tokens text).map Lexeme.token = tokens :=
  h _ _ rfl (by omega)

/-- At the end of a text there is the last token. -/
theorem scans_nil : Scans [] [.endOfText] := by
  intro fuel s here enough
  obtain ⟨fuel, rfl⟩ : ∃ n, fuel = n + 1 := ⟨fuel - 1, by simp at enough; omega⟩
  have ended : s.token = (.endOfText, s) := by rw [token, here]
  rw [tokensFrom, skipBlanks_nil here]
  dsimp only
  rw [ended]
  rfl

/-- A blank is passed over. -/
theorem Scans.space {text : List Char} {tokens : List Token} (h : Scans text tokens) :
    Scans (' ' :: text) tokens := by
  intro fuel s here enough
  obtain ⟨fuel, rfl⟩ : ∃ n, fuel = n + 1 := ⟨fuel - 1, by omega⟩
  have there := rest_next here
  have short : text.length < fuel + 1 := by simp at enough; omega
  have passed : skipBlanks (s.rest.length + 1) false false false s =
      skipBlanks (s.next.rest.length + 1) false false false s.next := by
    rw [skipBlanks_space here, there, here, List.length_cons]
  rw [← h (fuel + 1) s.next there short, tokensFrom, tokensFrom, passed]
  cases skipBlanks (s.next.rest.length + 1) false false false s.next with
  | none => rfl
  | some => rfl

/-- A token in front of a text, of which nothing was passed over. -/
theorem Scans.token {text rest : List Char} {c : Char} {tokens : List Token} {token : Token}
    (h : Scans rest tokens) (solid : IsSolid c)
    (goesOn : token ≠ .endOfText ∧ ∀ place, token ≠ .unreadable place)
    (reads : ∀ s : Scanner, s.rest = c :: text → ∃ after : Scanner, s.token = (token, after) ∧ after.rest = rest)
    (shorter : rest.length ≤ text.length) : Scans (c :: text) (token :: tokens) := by
  intro fuel s here enough
  obtain ⟨fuel, rfl⟩ : ∃ n, fuel = n + 1 := ⟨fuel - 1, by omega⟩
  obtain ⟨after, read, left⟩ := reads s here
  have short : rest.length < fuel := by simp at enough; omega
  have later := h fuel after left short
  rw [tokensFrom, skipBlanks_solid here solid]
  dsimp only
  rw [read]
  cases token with
  | endOfText => exact absurd rfl goesOn.1
  | unreadable place => exact absurd rfl (goesOn.2 place)
  | word => rw [← later]; rfl
  | number => rw [← later]; rfl
  | string => rw [← later]; rfl
  | punctuator => rw [← later]; rfl

/-- A word ends where a character does not continue it. -/
theorem Scans.word {text : List Char} {tokens : List Token} {name : String}
    (h : Scans text tokens) (isWord : Text.IsIdentifier name)
    (ends : ∀ c ∈ text.head?, Text.isIdentifierPart c = false) :
    Scans (name.toList ++ text) (.word name :: tokens) := by
  obtain ⟨c, rest, spelled, starts, parts⟩ := isWord.cases
  have taken : (name.toList ++ text).takeWhile Text.isIdentifierPart = name.toList := by
    rw [List.takeWhile_append_of_pos parts]
    cases text with
    | nil => exact List.append_nil _
    | cons d text =>
      rw [List.takeWhile_cons_of_neg (by rw [ends d rfl]; exact Bool.false_ne_true),
        List.append_nil]
  have reads (s : Scanner) (here : s.rest = c :: (rest ++ text)) :
      ∃ after : Scanner, s.token = (.word name, after) ∧ after.rest = text := by
    have whole : s.rest = name.toList ++ text := by rw [here, spelled, List.cons_append]
    refine ⟨s.skip name.toList.length, ?_, by rw [rest_skip, whole, List.drop_left]⟩
    rw [Scanner.token, here]
    dsimp only
    rw [if_pos starts, ← here, whole, taken, String.ofList_toList]
  rw [spelled, List.cons_append]
  exact h.token (isSolid_of_start starts) ⟨Token.noConfusion, fun _ => Token.noConfusion⟩ reads
    (by simp)

/-- A word in front of a blank. -/
theorem Scans.wordSpace {text : List Char} {tokens : List Token} {name : String}
    (h : Scans text tokens) (isWord : Text.IsIdentifier name) :
    Scans (name.toList ++ ' ' :: text) (.word name :: tokens) := by
  apply h.space.word isWord
  intro c here
  obtain rfl := Option.some.inj here
  decide +kernel

/-- A semicolon. -/
theorem Scans.semicolon {text : List Char} {tokens : List Token} (h : Scans text tokens) :
    Scans (';' :: text) (.punctuator .semicolon :: tokens) := by
  have solid : IsSolid ';' := ⟨by decide, by decide, by decide⟩
  refine h.token solid ⟨Token.noConfusion, fun _ => Token.noConfusion⟩ ?_ (Nat.le_refl _)
  intro s here
  refine ⟨s.next, ?_, rest_next here⟩
  rw [Scanner.token, here]
  rfl

/-- An escape of a string is read as what it stands for. -/
theorem stringTail_backslash {s : Scanner} {rest text : List Char} {escaped : Text.Units} {length : Nat}
    (here : s.rest = '\\' :: rest) (is : escape? rest = some (escaped, length))
    (left : rest.drop length = text) (fuel : Nat) (units : Text.Units) :
    ∃ after : Scanner, after.rest = text ∧
      stringTail '"' (fuel + 1) units s = stringTail '"' fuel (escaped.reverse ++ units) after := by
  refine ⟨s.skip (length + 1), by rw [rest_skip, here, List.drop_succ_cons, left], ?_⟩
  rw [stringTail, here]
  dsimp only
  rw [if_neg (by decide), if_neg (by decide), if_pos rfl, is]

/-- The escaped form of a character is read as the units of the character. -/
theorem stringTail_escape (c : Char) {s : Scanner} {text : List Char}
    (here : s.rest = Json.escapeStringChar c ++ text) (fuel : Nat) (units : Text.Units) :
    ∃ after : Scanner, after.rest = text ∧
      stringTail '"' (fuel + 1) units s =
        stringTail '"' fuel ((Text.Units.ofChar c).reverse ++ units) after := by
  rw [Json.escapeStringChar.eq_def] at here
  split at here
  next => exact stringTail_backslash here rfl rfl fuel units
  next => exact stringTail_backslash here rfl rfl fuel units
  next => exact stringTail_backslash here rfl rfl fuel units
  next => exact stringTail_backslash here rfl rfl fuel units
  next => exact stringTail_backslash here rfl rfl fuel units
  next => exact stringTail_backslash here rfl rfl fuel units
  next => exact stringTail_backslash here rfl rfl fuel units
  next notQuote notBackslash _ _ _ _ _ =>
    split at here
    next low =>
      have digits : ∀ n < 32,
          (hexNumber? ['0', '0', Text.hexDigit (n / 16), Text.hexDigit (n % 16)]).map
            (fun code => (unitsOfCode code, 5)) = some (Text.Units.ofChar (Char.ofNat n), 5) := by
        decide
      have is : escape? ('u' :: '0' :: '0' :: Text.hexDigit (c.toNat / 16)
          :: Text.hexDigit (c.toNat % 16) :: text) = some (Text.Units.ofChar c, 5) := by
        have is := digits _ low
        rw [Char.ofNat_toNat] at is
        exact is
      exact stringTail_backslash here is rfl fuel units
    next high =>
      have noLine : ¬(c = '\n' ∨ c = '\r') := by
        rintro (rfl | rfl) <;> exact high (by decide)
      refine ⟨s.next, rest_next here, ?_⟩
      rw [stringTail, here]
      exact (if_neg notQuote).trans ((if_neg noLine).trans (if_neg notBackslash))

/-- A string in its quotation marks is read as its units. -/
theorem stringTail_escapes (chars : List Char) {s : Scanner} {text : List Char}
    (here : s.rest = chars.flatMap Json.escapeStringChar ++ '"' :: text) {fuel : Nat}
    (enough : chars.length < fuel) (units : Text.Units) :
    ∃ after : Scanner, after.rest = text ∧
      stringTail '"' fuel units s = (.string (units.reverse ++ Text.Units.ofList chars), after) := by
  induction chars generalizing s fuel units with
  | nil =>
    obtain ⟨fuel, rfl⟩ : ∃ n, fuel = n + 1 := ⟨fuel - 1, by simp at enough; omega⟩
    refine ⟨s.next, rest_next here, ?_⟩
    have none : Text.Units.ofList [] = [] := rfl
    rw [stringTail, here, none, List.append_nil]
    exact if_pos rfl
  | cons c chars ih =>
    obtain ⟨fuel, rfl⟩ : ∃ n, fuel = n + 1 := ⟨fuel - 1, by omega⟩
    rw [List.flatMap_cons, List.append_assoc] at here
    obtain ⟨after, left, read⟩ := stringTail_escape c here fuel units
    obtain ⟨last, left', read'⟩ := ih left (Nat.lt_of_succ_lt_succ enough)
      ((Text.Units.ofChar c).reverse ++ units)
    have split : Text.Units.ofList (c :: chars) = Text.Units.ofChar c ++ Text.Units.ofList chars := rfl
    refine ⟨last, left', ?_⟩
    rw [read, read', List.reverse_append, List.reverse_reverse, List.append_assoc, split]

/-- A string in its quotation marks. -/
theorem Scans.string {text : List Char} {tokens : List Token} (h : Scans text tokens) (content : String) :
    Scans (Json.writeString content ++ text) (.string (Text.Units.ofString content) :: tokens) := by
  have solid : IsSolid '"' := ⟨by decide, by decide, by decide⟩
  have long (c : Char) : 1 ≤ (Json.escapeStringChar c).length := by
    rw [Json.escapeStringChar.eq_def]
    split <;> try simp
    split <;> simp
  have longer (chars : List Char) : chars.length ≤ (chars.flatMap Json.escapeStringChar).length := by
    induction chars with
    | nil => exact Nat.le_refl _
    | cons c chars ih =>
      have one := long c
      rw [List.flatMap_cons, List.length_append, List.length_cons]
      omega
  have enough := longer content.toList
  have whole : Json.writeString content ++ text =
      '"' :: (content.toList.flatMap Json.escapeStringChar ++ '"' :: text) := by
    simp [Json.writeString]
  rw [whole]
  refine h.token solid ⟨Token.noConfusion, fun _ => Token.noConfusion⟩ ?_ (by simp; omega)
  intro s here
  let chars := content.toList.flatMap Json.escapeStringChar ++ '"' :: text
  have enough' : content.toList.length < chars.length + 1 := by
    rw [List.length_append]
    omega
  obtain ⟨after, left, read⟩ := stringTail_escapes content.toList (rest_next here) enough' []
  refine ⟨after, ?_, left⟩
  have noStart : ¬Text.isIdentifierStart '"' = true := by decide +kernel
  rw [Scanner.token, here]
  exact (if_neg noStart).trans ((if_neg Bool.false_ne_true).trans ((if_pos (.inl rfl)).trans read))

end Script.Scanner
end Isolate
