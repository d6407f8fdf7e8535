import Isolate.Proofs.Json.Syntax

/-!
# Strings in JSON texts

A string is read as the text that its pieces stand for, and refused if they stand for none; passed over
it may be any string. Whatever is taken for a string is made of pieces up to a quotation mark.
-/

namespace Isolate.Json

open Text

variable {cursor : Cursor} {c : Char} {rest later text : List Char} {fuel : Nat}

theorem HexDigit.low (digit : HexDigit) : digit.char.toNat < 0x80 := by
  obtain ⟨value, isUpper⟩ := digit
  revert value isUpper
  decide

theorem hexValue?_char (digit : HexDigit) : hexValue? (byte digit.char) = some digit.value.val := by
  obtain ⟨value, isUpper⟩ := digit
  revert value isUpper
  decide

theorem exists_hexDigit {b : UInt8} {value : Nat} (found : hexValue? b = some value) :
    ∃ digit : HexDigit, b = byte digit.char := by
  have all : ∀ n < 256, (hexValue? n.toUInt8).isSome = true →
      ∃ (value : Fin 16) (isUpper : Bool), n.toUInt8 = byte (HexDigit.char ⟨value, isUpper⟩) := by
    decide +kernel
  obtain ⟨value, isUpper, same⟩ :=
    all b.toNat b.toNat_lt (by rw [Utf8.toUInt8_toNat, found, Option.isSome_some])
  exact ⟨⟨value, isUpper⟩, by rw [← same, Utf8.toUInt8_toNat]⟩

theorem Letter.low (letter : Letter) : letter.char.toNat < 0x80 := by
  cases letter <;> decide

theorem simpleEscape?_char (letter : Letter) :
    simpleEscape? (byte letter.char) = some (byte letter.meaning) := by
  cases letter <;> decide

theorem exists_letter {b c : UInt8} (found : simpleEscape? b = some c) :
    ∃ letter : Letter, b = byte letter.char := by
  rw [simpleEscape?] at found
  split at found
  next is =>
    simp only [Bool.or_eq_true, decide_eq_true_eq] at is
    obtain (rfl | rfl) | rfl := is
    · exact ⟨.quote, rfl⟩
    · exact ⟨.backslash, rfl⟩
    · exact ⟨.slash, rfl⟩
  split at found
  next is => exact ⟨.backspace, is⟩
  split at found
  next is => exact ⟨.formFeed, is⟩
  split at found
  next is => exact ⟨.newLine, is⟩
  split at found
  next is => exact ⟨.carriageReturn, is⟩
  split at found
  next is => exact ⟨.tab, is⟩
  contradiction

theorem encode_digits (first second third fourth : HexDigit) (later : List Char) :
    Utf8.encode (first.char :: second.char :: third.char :: fourth.char :: later) =
      byte first.char :: byte second.char :: byte third.char :: byte fourth.char
        :: Utf8.encode later := by
  rw [Utf8.encode_cons_ascii first.low, Utf8.encode_cons_ascii second.low,
    Utf8.encode_cons_ascii third.low, Utf8.encode_cons_ascii fourth.low]
  rfl

theorem rest_advance (count : Nat) (cursor : Cursor) :
    (cursor.advance count).rest = cursor.rest.drop count := by
  induction count generalizing cursor with
  | zero => rfl
  | succ count ih => rw [Cursor.advance, ih, Cursor.rest_next, List.drop_tail]

theorem hexEscape_tells (first second third fourth : HexDigit)
    (before : cursor.Before
      (first.char :: second.char :: third.char :: fourth.char :: later)) :
    (hexEscape cursor).Tells (some (codeUnit first second third fourth)) later := by
  have rest := before
  rw [Cursor.Before, encode_digits] at rest
  rw [hexEscape, rest]
  simp only [hexValue?_char]
  exact .value (by rw [Cursor.Before, rest_advance, rest]; rfl)

/-- What four digits of an escape look like. -/
def SpellsUnit (code : Nat) (text : List Char) : Prop :=
  ∃ first second third fourth : HexDigit,
    text = [first.char, second.char, third.char, fourth.char] ∧
      code = codeUnit first second third fourth

theorem hexEscape_takes (before : cursor.Before text) :
    (hexEscape cursor).Takes SpellsUnit text := by
  intro code after is
  rw [hexEscape] at is
  split at is
  next a b c d bytes rest =>
    split at is
    next isFirst isSecond isThird isFourth =>
      cases is
      obtain ⟨first, rfl⟩ := exists_hexDigit isFirst
      obtain ⟨second, rfl⟩ := exists_hexDigit isSecond
      obtain ⟨third, rfl⟩ := exists_hexDigit isThird
      obtain ⟨fourth, rfl⟩ := exists_hexDigit isFourth
      rw [hexValue?_char, Option.some_inj] at isFirst isSecond isThird isFourth
      obtain ⟨_, rfl, rest₁⟩ := eq_cons_of_encode (before.symm.trans rest) first.low
      obtain ⟨_, rfl, rest₂⟩ := eq_cons_of_encode rest₁.symm second.low
      obtain ⟨_, rfl, rest₃⟩ := eq_cons_of_encode rest₂.symm third.low
      obtain ⟨later, rfl, rest₄⟩ := eq_cons_of_encode rest₃.symm fourth.low
      refine ⟨_, later, rfl, ?_, first, second, third, fourth, rfl, ?_⟩
      · rw [Cursor.Before, rest_advance, rest, ← rest₄]
        rfl
      · rw [codeUnit, ← isFirst, ← isSecond, ← isThird, ← isFourth]
    next => contradiction
  next => contradiction

def IsPlainByte (b : UInt8) : Prop := b ≠ 0x22 ∧ b ≠ 0x5c ∧ ¬b < 0x20

theorem isPlainByte_of_plain {b : UInt8} (isPlain : c ≠ '"' ∧ c ≠ '\\' ∧ 0x20 ≤ c.toNat)
    (member : b ∈ Utf8.encodeChar c) : IsPlainByte b := by
  obtain ⟨notQuote, notBackslash, notControl⟩ := isPlain
  by_cases low : c.toNat < 0x80
  · rw [Utf8.encodeChar_one low, List.mem_singleton] at member
    have value : b.toNat = c.toNat := by rw [member, Utf8.toNat_toUInt8 (by omega)]
    refine ⟨fun is => notQuote ?_, fun is => notBackslash ?_, fun is => ?_⟩
    · rw [← Char.toNat_inj, ← value, is]
      rfl
    · rw [← Char.toNat_inj, ← value, is]
      rfl
    · have small : b.toNat < 0x20 := UInt8.lt_iff_toNat_lt.mp is
      omega
  · have high := Utf8.le_of_mem_encodeChar (by omega) member
    refine ⟨?_, ?_, fun is => ?_⟩
    · rintro rfl
      contradiction
    · rintro rfl
      contradiction
    · have small : b.toNat < 0x20 := UInt8.lt_iff_toNat_lt.mp is
      omega

theorem Outcome.map_map {α β γ : Type} (f : α → β) (g : β → γ) (outcome : Outcome α) :
    (outcome.map f).map g = outcome.map fun a => g (f a) := by
  cases outcome <;> rfl

theorem Outcome.map_id {α : Type} (outcome : Outcome α) : outcome.map (fun a => a) = outcome := by
  cases outcome <;> rfl

/-- Such bytes are kept when a string is read and passed when it is passed over. -/
theorem pass_bytes {bytes more : List UInt8} (plain : ∀ b ∈ bytes, IsPlainByte b)
    (rest : cursor.rest = bytes ++ more) (fuel : Nat) :
    ∃ cursor', cursor'.rest = more ∧
      stringBytes (bytes.length + fuel) cursor = (stringBytes fuel cursor').map (bytes ++ ·) ∧
        skipString (bytes.length + fuel) cursor = skipString fuel cursor' := by
  induction bytes generalizing cursor with
  | nil =>
    rw [List.length_nil, Nat.zero_add]
    exact ⟨cursor, rest, (Outcome.map_id _).symm, rfl⟩
  | cons b bytes ih =>
    obtain ⟨notQuote, notBackslash, notControl⟩ := plain b List.mem_cons_self
    have front : cursor.peek = some b := by rw [Cursor.peek, rest]; rfl
    have behind : cursor.next.rest = bytes ++ more := by rw [Cursor.rest_next, rest]; rfl
    obtain ⟨cursor', rest', reads, skips⟩ :=
      ih (fun b member => plain b (List.mem_cons_of_mem _ member)) behind
    refine ⟨cursor', rest', ?_, ?_⟩
    · rw [List.length_cons, Nat.add_right_comm, stringBytes, front]
      dsimp only
      rw [if_neg notQuote, if_neg notBackslash, if_neg notControl, reads, Outcome.map_map]
      rfl
    · rw [List.length_cons, Nat.add_right_comm, skipString, front]
      dsimp only
      rw [if_neg notQuote, if_neg notBackslash, if_neg notControl, skips]

/-- What a string does at a character that stands for itself. -/
theorem pass_plain (before : cursor.Before (c :: later))
    (isPlain : c ≠ '"' ∧ c ≠ '\\' ∧ 0x20 ≤ c.toNat) (enough : cursor.rest.length < fuel) :
    ∃ fuel' cursor', fuel' < fuel ∧ cursor'.Before later ∧ cursor'.rest.length < fuel' ∧
      stringBytes fuel cursor =
        (stringBytes fuel' cursor').map (Utf8.encodeChar c ++ ·) ∧
      skipString fuel cursor = skipString fuel' cursor' := by
  have rest : cursor.rest = Utf8.encodeChar c ++ Utf8.encode later := by
    rw [before, Utf8.encode_cons]
  have positive : 0 < (Utf8.encodeChar c).length := by
    rw [Utf8.encodeChar_eq]
    exact List.length_pos_iff.mpr String.utf8EncodeChar_ne_nil
  rw [rest, List.length_append] at enough
  obtain ⟨fuel', rfl⟩ : ∃ fuel', fuel = (Utf8.encodeChar c).length + fuel' :=
    ⟨fuel - (Utf8.encodeChar c).length, by omega⟩
  obtain ⟨cursor', rest', reads, skips⟩ :=
    pass_bytes (fun b member => isPlainByte_of_plain isPlain member) rest fuel'
  exact ⟨fuel', cursor', by omega, rest', by rw [rest']; omega, reads, skips⟩

/-- Pieces up to the quotation mark behind them, and what follows. -/
def closed (pieces : List Piece) (rest : List Char) : List Char :=
  pieces.flatMap Piece.chars ++ '"' :: rest

theorem closed_cons (piece : Piece) (pieces : List Piece) (rest : List Char) :
    closed (piece :: pieces) rest = piece.chars ++ closed pieces rest := by
  rw [closed, List.flatMap_cons, List.append_assoc, closed]

theorem secondSurrogate_pair {a b c d : HexDigit} {pieces : List Piece} {leading : Nat}
    (before : cursor.Before (closed (.unit a b c d :: pieces) rest))
    (trailing : isTrailing (codeUnit a b c d) = true) :
    (secondSurrogate leading cursor).Tells
      (some (Utf8.encodeChar (pairChar leading (codeUnit a b c d)))) (closed pieces rest) := by
  rw [closed_cons] at before
  rw [secondSurrogate, before.peek_cons (by decide)]
  dsimp only
  have behind := before.next_cons (by decide)
  rw [if_neg (by decide), behind.peek_cons (by decide)]
  dsimp only
  rw [if_neg (by decide)]
  have tells := hexEscape_tells a b c d (behind.next_cons (by decide))
  refine tells.andThen_some ?_
  intro after here
  simp only [isTrailing, Bool.and_eq_true, decide_eq_true_eq] at trailing
  rw [if_neg (by omega)]
  exact .value here

/-- The byte in front of a character that stands for itself. -/
theorem peek_plain (before : cursor.Before (c :: later))
    (isPlain : c ≠ '"' ∧ c ≠ '\\' ∧ 0x20 ≤ c.toNat) :
    ∃ b, cursor.peek = some b ∧ IsPlainByte b := by
  obtain ⟨b, more, split⟩ : ∃ b more, Utf8.encodeChar c = b :: more := by
    rw [Utf8.encodeChar_eq]
    exact List.exists_cons_of_ne_nil String.utf8EncodeChar_ne_nil
  refine ⟨b, ?_, isPlainByte_of_plain isPlain (split ▸ List.mem_cons_self)⟩
  rw [Cursor.peek, before, Utf8.encode_cons, split]
  rfl

theorem secondSurrogate_alone {pieces : List Piece} {leading : Nat}
    (before : cursor.Before (closed pieces rest))
    (alone : ∀ a b c d pieces', pieces = .unit a b c d :: pieces' →
      isTrailing (codeUnit a b c d) = false) :
    (secondSurrogate leading cursor).Tells none rest := by
  obtain _ | ⟨⟨c, isPlain⟩ | letter | ⟨a, b, c, d⟩, pieces⟩ := pieces
  · rw [secondSurrogate, Cursor.Before.peek_cons before (by decide)]
    exact .fault _
  · obtain ⟨b, front, -, notBackslash, -⟩ := peek_plain (closed_cons _ _ _ ▸ before) isPlain
    rw [secondSurrogate, front]
    dsimp only
    rw [if_pos notBackslash]
    exact .fault _
  · rw [closed_cons] at before
    have behind := before.next_cons (by decide)
    have notUnit : byte letter.char ≠ 0x75 := by cases letter <;> decide
    rw [secondSurrogate, before.peek_cons (by decide)]
    dsimp only
    rw [if_neg (by decide), behind.peek_cons letter.low]
    dsimp only
    rw [if_pos notUnit]
    exact .fault _
  · have notTrailing := alone a b c d pieces rfl
    rw [closed_cons] at before
    have behind := before.next_cons (by decide)
    rw [secondSurrogate, before.peek_cons (by decide)]
    dsimp only
    rw [if_neg (by decide), behind.peek_cons (by decide)]
    dsimp only
    rw [if_neg (by decide)]
    have tells := hexEscape_tells a b c d (behind.next_cons (by decide))
    refine tells.andThen_some ?_
    intro after _
    simp only [isTrailing, Bool.and_eq_false_iff, decide_eq_false_iff_not] at notTrailing
    rw [if_pos (by omega)]
    exact .fault _

theorem escape_letter (letter : Letter) (before : cursor.Before (letter.char :: later)) :
    (escape cursor).Tells (some [byte letter.meaning]) later := by
  rw [escape, before.peek_cons letter.low]
  dsimp only
  rw [simpleEscape?_char]
  exact .value (before.next_cons letter.low)

theorem isTrailing_iff {code : Nat} : isTrailing code = true ↔ 0xdc00 ≤ code ∧ code ≤ 0xdfff := by
  rw [isTrailing, Bool.and_eq_true, decide_eq_true_eq, decide_eq_true_eq]

theorem isLeading_iff {code : Nat} : isLeading code = true ↔ 0xd800 ≤ code ∧ code ≤ 0xdbff := by
  rw [isLeading, Bool.and_eq_true, decide_eq_true_eq, decide_eq_true_eq]

/-- A code unit is taken for itself, as the beginning of a pair or, as its end, not at all. -/
theorem escape_unit {found : Option (List UInt8)} {after : List Char} (a b c d : HexDigit)
    (before : cursor.Before ('u' :: a.char :: b.char :: c.char :: d.char :: later))
    (goesOn : ∀ cursor : Cursor, cursor.Before later →
      Outcome.Tells
        (if isTrailing (codeUnit a b c d) then cursor.faultHere .loneSurrogate
        else if isLeading (codeUnit a b c d) then secondSurrogate (codeUnit a b c d) cursor
        else .value (Utf8.encodeChar (Char.ofNat (codeUnit a b c d))) cursor) found after) :
    (escape cursor).Tells found after := by
  have noLetter : simpleEscape? (byte 'u') = none := by decide
  rw [escape, before.peek_cons (by decide)]
  dsimp only
  rw [noLetter]
  dsimp only
  rw [if_pos (by decide)]
  have tells := hexEscape_tells a b c d (before.next_cons (by decide))
  refine tells.andThen_some ?_
  intro after here
  simp only [← isTrailing_iff, ← isLeading_iff]
  exact goesOn after here

/-- A backslash in a string is the start of an escape. -/
theorem stringBytes_backslash (before : cursor.Before ('\\' :: later)) (fuel : Nat) :
    stringBytes (fuel + 1) cursor =
      (escape cursor.next).andThen fun bytes after =>
        (stringBytes fuel after).map (bytes ++ ·) := by
  rw [stringBytes, before.peek_cons (by decide)]
  dsimp only
  rw [if_neg (by decide), if_pos (by decide)]

/-- What an escape stands for goes in front of what the rest of the string stands for. -/
theorem stringBytes_escape {c : Char} {chunk : List Char} {pieces : List Piece}
    (before : cursor.Before ('\\' :: (chunk ++ closed pieces rest)))
    (enough : cursor.rest.length < fuel)
    (reads : (escape cursor.next).Tells (some (Utf8.encodeChar c)) (closed pieces rest))
    (goesOn : ∀ {cursor : Cursor} {fuel}, cursor.Before (closed pieces rest) →
      cursor.rest.length < fuel →
        (stringBytes fuel cursor).Tells ((meaning? pieces).map Utf8.encode) rest) :
    (stringBytes fuel cursor).Tells (((meaning? pieces).map (c :: ·)).map Utf8.encode) rest := by
  obtain _ | fuel := fuel
  · omega
  rw [stringBytes_backslash before, Option.map_map]
  obtain ⟨after, is, before'⟩ := reads
  have less := before.length_lt before'
  have tells := (goesOn before' (Nat.lt_of_lt_of_le less (Nat.le_of_lt_succ enough))).map (Utf8.encodeChar c ++ ·)
  rw [is]
  rwa [Option.map_map] at tells

theorem stringBytes_refused (before : cursor.Before ('\\' :: later))
    (refused : (escape cursor.next).Tells none rest) :
    (stringBytes fuel cursor).Tells none rest := by
  obtain _ | fuel := fuel
  · exact .fault _
  · rw [stringBytes_backslash before]
    exact refused.andThen_none

theorem stringBytes_tells {pieces : List Piece} (before : cursor.Before (closed pieces rest))
    (enough : cursor.rest.length < fuel) :
    (stringBytes fuel cursor).Tells ((meaning? pieces).map Utf8.encode) rest := by
  fun_induction meaning? pieces generalizing cursor fuel with
  | case1 =>
    obtain _ | fuel := fuel
    · omega
    rw [stringBytes, Cursor.Before.peek_cons before (by decide)]
    exact .value (Cursor.Before.next_cons before (by decide))
  | case2 c isPlain pieces ih =>
    obtain ⟨fuel', cursor', -, before', enough', reads, -⟩ :=
      pass_plain (closed_cons _ _ _ ▸ before) isPlain enough
    have tells := (ih before' enough').map (Utf8.encodeChar c ++ ·)
    rw [reads]
    rwa [Option.map_map] at tells ⊢
  | case3 letter pieces ih =>
    rw [closed_cons] at before
    refine stringBytes_escape before enough ?_ ih
    have meaning : Utf8.encodeChar letter.meaning = [byte letter.meaning] := by
      cases letter <;> rfl
    rw [meaning]
    exact escape_letter letter (before.next_cons (by decide))
  | case4 a b c d pieces trailing =>
    rw [closed_cons] at before
    refine stringBytes_refused before (escape_unit a b c d (before.next_cons (by decide)) ?_)
    intro cursor _
    rw [if_pos trailing]
    exact .fault _
  | case5 a b c d notTrailing leading a' b' c' d' pieces trailing ih =>
    rw [closed_cons, closed_cons, ← List.append_assoc] at before
    refine stringBytes_escape before enough ?_ ih
    refine escape_unit a b c d (before.next_cons (by decide)) ?_
    intro cursor before'
    rw [if_neg notTrailing, if_pos leading]
    exact secondSurrogate_pair before' trailing
  | case6 a b c d notTrailing leading a' b' c' d' pieces notTrailing' =>
    rw [closed_cons] at before
    refine stringBytes_refused before (escape_unit a b c d (before.next_cons (by decide)) ?_)
    intro cursor before'
    rw [if_neg notTrailing, if_pos leading]
    refine secondSurrogate_alone before' ?_
    rintro a b c d pieces ⟨⟩
    simpa using notTrailing'
  | case7 a b c d pieces notTrailing leading alone =>
    rw [closed_cons] at before
    refine stringBytes_refused before (escape_unit a b c d (before.next_cons (by decide)) ?_)
    intro cursor before'
    rw [if_neg notTrailing, if_pos leading]
    refine secondSurrogate_alone before' ?_
    intro a' b' c' d' pieces' is
    exact absurd is (alone a' b' c' d' pieces')
  | case8 a b c d pieces notTrailing notLeading ih =>
    rw [closed_cons] at before
    refine stringBytes_escape before enough ?_ ih
    refine escape_unit a b c d (before.next_cons (by decide)) ?_
    intro cursor before'
    rw [if_neg notTrailing, if_neg notLeading]
    exact .value before'

theorem decode_encode_text (text : List Char) :
    (match Utf8.decode (Utf8.encode text) with
      | .ok text => String.ofList text
      | .error _ => "") = String.ofList text := by
  rw [Utf8.decode_encode]

/-- A string is read as the text that it stands for. -/
theorem stringTail_tells {pieces : List Piece} (before : cursor.Before (closed pieces rest)) :
    (stringTail cursor).Tells ((meaning? pieces).map String.ofList) rest := by
  have tells := (stringBytes_tells before (Nat.lt_succ_self _)).map fun bytes =>
    match Utf8.decode bytes with
    | .ok text => String.ofList text
    | .error _ => ""
  rwa [Option.map_map, Function.comp_def, funext decode_encode_text] at tells

/-- An escape is passed with its letter or its four digits. -/
theorem skipString_backslash (before : cursor.Before ('\\' :: later)) (fuel : Nat) :
    skipString (fuel + 1) cursor =
      match cursor.next.peek with
      | none => cursor.next.faultHere .endInString
      | some e =>
        if (simpleEscape? e).isSome then skipString fuel cursor.next.next
        else if e = 0x75 then
          (hexEscape cursor.next.next).andThen fun _ after => skipString fuel after
        else cursor.next.next.faultHere .invalidEscape := by
  rw [skipString, before.peek_cons (by decide)]
  exact (if_neg (by decide)).trans (if_pos (by decide))

theorem skipString_tells {pieces : List Piece} (before : cursor.Before (closed pieces rest))
    (enough : cursor.rest.length < fuel) : (skipString fuel cursor).Tells (some ()) rest := by
  induction pieces generalizing cursor fuel with
  | nil =>
    obtain _ | fuel := fuel
    · omega
    rw [skipString, Cursor.Before.peek_cons before (by decide)]
    exact .value (Cursor.Before.next_cons before (by decide))
  | cons piece pieces ih =>
    rw [closed_cons] at before
    cases piece with
    | plain c isPlain =>
      obtain ⟨fuel', cursor', -, before', enough', -, skips⟩ := pass_plain before isPlain enough
      rw [skips]
      exact ih before' enough'
    | short letter =>
      obtain _ | fuel := fuel
      · omega
      have behind := before.next_cons (by decide)
      rw [skipString_backslash before, behind.peek_cons letter.low]
      dsimp only
      rw [simpleEscape?_char, Option.isSome_some, if_pos rfl]
      have before' := behind.next_cons letter.low
      have less := before.length_lt before'
      exact ih before' (by omega)
    | unit a b c d =>
      obtain _ | fuel := fuel
      · omega
      have behind := before.next_cons (by decide)
      have noLetter : simpleEscape? (byte 'u') = none := by decide
      rw [skipString_backslash before, behind.peek_cons (by decide)]
      dsimp only
      rw [noLetter, if_neg (by decide), if_pos (by decide)]
      have tells := hexEscape_tells a b c d (behind.next_cons (by decide))
      refine tells.andThen_some ?_
      intro cursor' before'
      have less := before.length_lt before'
      exact ih before' (by omega)

theorem secondSurrogate_takes {leading : Nat} (before : cursor.Before text) :
    (secondSurrogate leading cursor).Takes
      (fun _ chunk => ∃ piece : Piece, chunk = piece.chars) text := by
  rw [secondSurrogate]
  split
  next => exact .fault _
  next b front =>
    split
    next => exact .fault _
    next isBackslash =>
      rw [not_not.mp isBackslash] at front
      obtain ⟨later, rfl, behind⟩ := before.exists_of_peek (c := '\\') front (by decide)
      dsimp only
      split
      next => exact .fault _
      next b front' =>
        split
        next => exact .fault _
        next isUnit =>
          rw [not_not.mp isUnit] at front'
          obtain ⟨later, rfl, behind'⟩ := behind.exists_of_peek (c := 'u') front' (by decide)
          intro bytes after is
          obtain ⟨code, cursor', read, is⟩ := Outcome.exists_of_andThen is
          obtain ⟨_, rest, rfl, before', a, b, c, d, rfl, -⟩ :=
            hexEscape_takes behind' code cursor' read
          split at is
          · contradiction
          · obtain ⟨-, rfl⟩ := Outcome.value.inj is
            exact ⟨_, rest, rfl, before', .unit a b c d, rfl⟩

/-- An escape behind its backslash is one piece, or the two of a surrogate pair. -/
theorem escape_takes (before : cursor.Before text) :
    (escape cursor).Takes
      (fun _ chunk => ∃ pieces : List Piece, '\\' :: chunk = pieces.flatMap Piece.chars) text := by
  rw [escape]
  split
  next => exact .fault _
  next b front =>
    split
    next bytes isLetter =>
      obtain ⟨letter, rfl⟩ := exists_letter isLetter
      obtain ⟨later, rfl, before'⟩ := before.exists_of_peek front letter.low
      intro found cursor' is
      cases is
      exact ⟨[letter.char], later, rfl, before', [.short letter], rfl⟩
    next =>
      split
      next isUnit =>
        subst isUnit
        obtain ⟨later, rfl, behind⟩ := before.exists_of_peek (c := 'u') front (by decide)
        intro bytes after is
        obtain ⟨code, cursor', read, is⟩ := Outcome.exists_of_andThen is
        obtain ⟨_, rest, rfl, before', a, b, c, d, rfl, -⟩ :=
          hexEscape_takes behind code cursor' read
        split at is
        · contradiction
        · split at is
          · obtain ⟨_, rest', rfl, before'', piece, rfl⟩ :=
              secondSurrogate_takes before' bytes after is
            refine ⟨'u' :: a.char :: b.char :: c.char :: d.char :: piece.chars, rest', rfl, before'',
              [.unit a b c d, piece], ?_⟩
            rw [List.flatMap_cons, List.flatMap_singleton]
            rfl
          · obtain ⟨-, rfl⟩ := Outcome.value.inj is
            exact ⟨_, rest, rfl, before', [.unit a b c d], rfl⟩
      next => exact .fault _

/-- A string goes on only with characters that stand for themselves. -/
theorem isPlain_of_peek {b : UInt8} (before : cursor.Before (c :: later))
    (front : cursor.peek = some b) (notQuote : b ≠ 0x22) (notBackslash : b ≠ 0x5c)
    (notControl : ¬b < 0x20) : c ≠ '"' ∧ c ≠ '\\' ∧ 0x20 ≤ c.toNat := by
  by_cases low : c.toNat < 0x80
  · rw [before.peek_cons low, Option.some_inj] at front
    subst front
    refine ⟨?_, ?_, ?_⟩
    · rintro rfl
      exact notQuote rfl
    · rintro rfl
      exact notBackslash rfl
    · rw [UInt8.lt_iff_toNat_lt, byte, Utf8.toNat_toUInt8 (by omega)] at notControl
      exact Nat.not_lt.mp notControl
  · refine ⟨?_, ?_, by omega⟩
    · rintro rfl
      exact low (by decide)
    · rintro rfl
      exact low (by decide)

/-- What a string can go on with: its end, an escape, a character that stands for itself; or it is
refused. -/
theorem string_cases (before : cursor.Before text) (fuel : Nat) :
    (∃ later, text = '"' :: later ∧ cursor.next.Before later ∧
      stringBytes (fuel + 1) cursor = .value [] cursor.next ∧
        skipString (fuel + 1) cursor = .value () cursor.next) ∨
    (∃ later, text = '\\' :: later ∧ cursor.next.Before later) ∨
    (∃ c later, text = c :: later ∧ c ≠ '"' ∧ c ≠ '\\' ∧ 0x20 ≤ c.toNat) ∨
    ∃ fault fault', stringBytes (fuel + 1) cursor = .fault fault ∧
      skipString (fuel + 1) cursor = .fault fault' := by
  rw [stringBytes, skipString]
  split
  next => exact .inr (.inr (.inr ⟨_, _, rfl, rfl⟩))
  next b front =>
    split
    next isQuote =>
      subst isQuote
      obtain ⟨later, rfl, behind⟩ := before.exists_of_peek (c := '"') front (by decide)
      exact .inl ⟨later, rfl, behind, rfl, rfl⟩
    next notQuote =>
      split
      next isBackslash =>
        subst isBackslash
        obtain ⟨later, rfl, behind⟩ := before.exists_of_peek (c := '\\') front (by decide)
        exact .inr (.inl ⟨later, rfl, behind⟩)
      next notBackslash =>
        split
        next => exact .inr (.inr (.inr ⟨_, _, rfl, rfl⟩))
        next notControl =>
          obtain _ | ⟨c, later⟩ := text
          · rw [before.peek_nil] at front
            contradiction
          · have isPlain := isPlain_of_peek before front notQuote notBackslash notControl
            exact .inr (.inr (.inl ⟨c, later, rfl, isPlain⟩))

/-- The rest of a string: pieces and a quotation mark. -/
def IsTail (text : List Char) : Prop := ∃ pieces : List Piece, text = closed pieces []

theorem IsTail.append {chunk : List Char} (tail : IsTail chunk) (pieces : List Piece) :
    IsTail (pieces.flatMap Piece.chars ++ chunk) := by
  obtain ⟨pieces', rfl⟩ := tail
  exact ⟨pieces ++ pieces', by rw [closed, closed, List.flatMap_append, List.append_assoc]⟩

theorem stringBytes_takes (before : cursor.Before text) (enough : cursor.rest.length < fuel) :
    (stringBytes fuel cursor).Takes (fun _ => IsTail) text := by
  induction fuel using Nat.strongRecOn generalizing cursor text with
  | ind fuel ih =>
    obtain _ | fuel := fuel
    · exact .fault _
    obtain ⟨later, rfl, behind, reads, -⟩ | ⟨later, rfl, behind⟩ | ⟨c, later, rfl, isPlain⟩ |
      ⟨fault, -, reads, -⟩ := string_cases before fuel
    · rw [reads]
      intro bytes after is
      cases is
      exact ⟨['"'], later, rfl, behind, [], rfl⟩
    · rw [stringBytes_backslash before]
      intro bytes after is
      obtain ⟨escaped, cursor', read, is⟩ := Outcome.exists_of_andThen is
      obtain ⟨more, is, -⟩ := Outcome.exists_of_map is
      obtain ⟨chunk, rest, rfl, before', pieces, escapes⟩ := escape_takes behind escaped cursor' read
      have less := before.length_lt before'
      obtain ⟨chunk', rest', rfl, before'', tail⟩ :=
        ih fuel (Nat.lt_succ_self _) before' (by omega) more after is
      refine ⟨'\\' :: chunk ++ chunk', rest', ?_, before'', escapes ▸ tail.append pieces⟩
      rw [List.append_assoc, List.cons_append]
    · obtain ⟨fuel', cursor', less, before', enough', reads, -⟩ := pass_plain before isPlain enough
      rw [reads]
      refine .map fun bytes after is => ?_
      obtain ⟨chunk, rest, rfl, before'', tail⟩ := ih fuel' less before' enough' bytes after is
      exact ⟨c :: chunk, rest, rfl, before'', tail.append [.plain c isPlain]⟩
    · rw [reads]
      exact .fault _

theorem stringTail_takes (before : cursor.Before text) :
    (stringTail cursor).Takes (fun _ => IsTail) text :=
  .map (stringBytes_takes before (Nat.lt_succ_self _))

theorem skipString_takes (before : cursor.Before text) (enough : cursor.rest.length < fuel) :
    (skipString fuel cursor).Takes (fun _ => IsTail) text := by
  induction fuel using Nat.strongRecOn generalizing cursor text with
  | ind fuel ih =>
    obtain _ | fuel := fuel
    · exact .fault _
    obtain ⟨later, rfl, behind, -, skips⟩ | ⟨later, rfl, behind⟩ | ⟨c, later, rfl, isPlain⟩ |
      ⟨-, fault, -, skips⟩ := string_cases before fuel
    · rw [skips]
      intro _ after is
      cases is
      exact ⟨['"'], later, rfl, behind, [], rfl⟩
    · rw [skipString_backslash before]
      split
      next => exact .fault _
      next e front =>
        split
        next isLetter =>
          obtain ⟨meaning, isLetter⟩ := Option.isSome_iff_exists.mp isLetter
          obtain ⟨letter, rfl⟩ := exists_letter isLetter
          obtain ⟨later, rfl, behind'⟩ := behind.exists_of_peek front letter.low
          have further : cursor.Before ('\\' :: ([letter.char] ++ later)) := before
          have less := further.length_lt behind'
          intro _ after is
          obtain ⟨chunk, rest, rfl, before'', tail⟩ :=
            ih fuel (Nat.lt_succ_self _) behind' (by omega) () after is
          exact ⟨_, rest, rfl, before'', tail.append [.short letter]⟩
        next =>
          split
          next isUnit =>
            subst isUnit
            obtain ⟨later, rfl, behind'⟩ := behind.exists_of_peek (c := 'u') front (by decide)
            intro _ after is
            obtain ⟨code, cursor', read, is⟩ := Outcome.exists_of_andThen is
            obtain ⟨_, rest, rfl, before', a, b, c, d, rfl, -⟩ :=
              hexEscape_takes behind' code cursor' read
            have further : cursor.Before
                ('\\' :: (['u', a.char, b.char, c.char, d.char] ++ rest)) := before
            have less := further.length_lt before'
            obtain ⟨chunk, rest, rfl, before'', tail⟩ :=
              ih fuel (Nat.lt_succ_self _) before' (by omega) () after is
            exact ⟨_, rest, rfl, before'', tail.append [.unit a b c d]⟩
          next => exact .fault _
    · obtain ⟨fuel', cursor', less, before', enough', -, skips⟩ := pass_plain before isPlain enough
      rw [skips]
      intro _ after is
      obtain ⟨chunk, rest, rfl, before'', tail⟩ := ih fuel' less before' enough' () after is
      exact ⟨c :: chunk, rest, rfl, before'', tail.append [.plain c isPlain]⟩
    · rw [skips]
      exact .fault _

end Isolate.Json
